import Std.Data.ExtTreeMap
import TileDepot.Grid.Level

/-!
# Coverage tables

A coverage table says for every published layer in which formats and gridsets it is published, and which rectangle of tiles
it covers at each zoom of a gridset.
-/

namespace TileDepot

/-- What is published of a layer. -/
structure LayerCoverage where
  /-- The formats, in the order in which they were published. -/
  formats : List String
  gridsets : Std.ExtTreeMap String (List Coverage)

/-- The published layers by name. -/
structure CoverageTable where
  layers : Std.ExtTreeMap String LayerCoverage

namespace CoverageTable

/-- A table without layers. -/
def empty : CoverageTable := ⟨∅⟩

instance : Inhabited CoverageTable := ⟨empty⟩

/-- Formats with more formats behind them, none twice. -/
def addFormats (formats more : List String) : List String :=
  more.foldl (fun formats format => if formats.contains format then formats else formats ++ [format]) formats

/-- A layer published in a gridset and in some formats, besides those it is published in already. -/
def publish (table : CoverageTable) (layer gridset : String) (formats : List String) (areas : List Coverage) :
    CoverageTable :=
  let known := table.layers.getD layer ⟨[], ∅⟩
  ⟨table.layers.insert layer ⟨addFormats known.formats formats, known.gridsets.insert gridset areas⟩⟩

/-- A layer published no more. -/
def withdraw (table : CoverageTable) (layer : String) : CoverageTable := ⟨table.layers.erase layer⟩

/-- The names of the published layers. -/
def layerNames (table : CoverageTable) : List String := table.layers.keys

/-- What is published of a layer. -/
def find (table : CoverageTable) (layer : String) : Except Error LayerCoverage :=
  match table.layers[layer]? with
  | some coverage => .ok coverage
  | none => .error (.notFound s!"layer {layer}")

/-- The gridsets of a layer. -/
def gridsets (table : CoverageTable) (layer : String) : Except Error (List String) := do
  return (← table.find layer).gridsets.keys

/-- The formats of a layer. -/
def formats (table : CoverageTable) (layer : String) : Except Error (List String) := do
  return (← table.find layer).formats

/-- What a layer covers in a gridset. -/
def areas (table : CoverageTable) (layer gridset : String) : Except Error (List Coverage) := do
  match (← table.find layer).gridsets[gridset]? with
  | some areas => return areas
  | none => throw (.notFound s!"gridset {gridset} of layer {layer}")

end CoverageTable

end TileDepot
