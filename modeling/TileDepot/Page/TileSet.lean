import TileDepot.Json.Reader
import TileDepot.Json.Writer

/-!
# Tile sets

The tiles of one layer in one gridset, one format and one set of parameters form a tile set. Pages and usage are kept under
the tile set's identifier, which is made of its other fields.
-/

namespace TileDepot

/-- The tiles that share layer, gridset, format and parameters. -/
structure TileSet where
  id : String
  layer : String
  gridset : String
  format : String
  parameters : Option String
deriving Repr, DecidableEq, Inhabited

namespace TileSet

/-- The order of tile sets: field by field. -/
def order : TileSet → TileSet → Ordering :=
  compareLex (compareOn id) (compareLex (compareOn layer) (compareLex (compareOn gridset)
    (compareLex (compareOn format) (compareOn parameters))))

instance : Ord TileSet := ⟨order⟩

instance : Std.TransOrd TileSet :=
  inferInstanceAs (Std.TransCmp (compareLex _ (compareLex _ (compareLex _ (compareLex _ _)))))

/-- The identifier made of the fields of a tile set. -/
def idOf (layer gridset format : String) : Option String → String
  | none => layer ++ "#" ++ gridset ++ "#" ++ format
  | some parameters => layer ++ "#" ++ gridset ++ "#" ++ format ++ "#" ++ parameters

/-- The tile set of a layer, a gridset, a format and a set of parameters. -/
def of (layer gridset format : String) (parameters : Option String) : TileSet :=
  ⟨idOf layer gridset format parameters, layer, gridset, format, parameters⟩

/-- The same tile set under another layer. -/
def renamed (set : TileSet) (layer : String) : TileSet := of layer set.gridset set.format set.parameters

/-- The tile set in words. -/
def text (set : TileSet) : String := s!"TileSet[{set.id}]"

/-- The tile set as it is stored. -/
def doc (set : TileSet) : Json.Doc :=
  .object [("id", .text set.id), ("layerName", .text set.layer), ("gridsetId", .text set.gridset),
    ("blobFormat", .text set.format), ("parametersId", .nullable .text set.parameters)]

/-- The fields of a stored tile set. -/
def storedFields : List (String × Json.Presence) :=
  [("id", .required), ("layerName", .required), ("gridsetId", .required), ("blobFormat", .required),
    ("parametersId", .optional)]

/-- The tile set that was stored. -/
def ofJson? (value : Json) : Option TileSet := do
  match ← value.record? storedFields with
  | [some id, some layer, some gridset, some format, some parameters] =>
    return ⟨← id.text?, ← layer.text?, ← gridset.text?, ← format.text?, ← parameters.nullable Json.text?⟩
  | _ => none

end TileSet

end TileDepot
