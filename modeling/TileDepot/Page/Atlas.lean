import TileDepot.Grid.CoverageTable
import TileDepot.Page.Page
import TileDepot.Run

/-!
# Atlases

An atlas finds the page of a tile. It draws the pyramid of a layer in a gridset from the coverage table when it is first
asked for, and keeps it until it is told to forget the layer, whatever becomes of the table in between.
-/

namespace TileDepot

/-- A coverage table and the pyramids drawn from it, by layer and gridset. -/
structure Atlas where
  table : CoverageTable
  drawn : Std.ExtTreeMap String (Std.ExtTreeMap String Pyramid)

namespace Atlas

/-- An atlas in which nothing is drawn. -/
def ofTable (table : CoverageTable) : Atlas := ⟨table, ∅⟩

instance : Inhabited Atlas := ⟨ofTable default⟩

/-- The pyramid that has been drawn of a layer in a gridset. -/
def drawn? (atlas : Atlas) (layer gridset : String) : Option Pyramid := atlas.drawn[layer]?.bind (·[gridset]?)

/-- The pyramid of a layer in a gridset as the table gives it. -/
def draw (atlas : Atlas) (layer gridset : String) : Except Error Pyramid := do
  Pyramid.ofCoverages (← atlas.table.areas layer gridset)

/-- An atlas with a pyramid drawn. -/
def keep (atlas : Atlas) (layer gridset : String) (pyramid : Pyramid) : Atlas :=
  { atlas with drawn := atlas.drawn.insert layer ((atlas.drawn.getD layer ∅).insert gridset pyramid) }

/-- The pyramid of a layer in a gridset, drawn if need be. -/
def pyramid (layer gridset : String) : Run Atlas Pyramid := Run.ofState fun atlas =>
  match atlas.drawn? layer gridset with
  | some pyramid => (.ok pyramid, atlas)
  | none =>
    match atlas.draw layer gridset with
    | .ok pyramid => (.ok pyramid, atlas.keep layer gridset pyramid)
    | .error error => (.error error, atlas)

/-- The pyramid of a tile set. -/
def pyramidOf (set : TileSet) : Run Atlas Pyramid := pyramid set.layer set.gridset

/-- The page of a tile, created at a minute. -/
def pageOf (set : TileSet) (x y z : Int) (now : Int) : Run Atlas Page := do
  if z < 0 ∨ z > Binary64.maxUInt32 then throw (.invalidArgument s!"invalid zoom level {z}")
  let pyramid ← pyramidOf set
  let index ← Run.result (pyramid.pageOf x y z.toNat)
  return .ofIndex set.id index now

/-- The tiles of a full page at a zoom. -/
def tilesPerPage (set : TileSet) (zoom : Nat) : Run Atlas Nat := do
  let pyramid ← pyramidOf set
  Run.result (pyramid.tilesPerPage zoom)

/-- The rectangle of tiles that a page stands for. -/
def areaOf (set : TileSet) (page : Page) : Run Atlas Coverage := do
  let pyramid ← pyramidOf set
  Run.result (pyramid.areaOf page.index)

/-- All pages of a tile set, created at a minute. -/
def pagesOf (set : TileSet) (now : Int) : Run Atlas (List Page) := do
  let pyramid ← pyramidOf set
  return pyramid.pages.map fun index => .ofIndex set.id index now

/-- The tile sets of a layer: one for each gridset and format, without parameters and with each set of parameters given. -/
def tileSetsFor (atlas : Atlas) (layer : String) (parameters : List String) : Except Error (List TileSet) := do
  let gridsets ← atlas.table.gridsets layer
  let formats ← atlas.table.formats layer
  let sets := gridsets.flatMap fun gridset => formats.flatMap fun format =>
    (none :: parameters.map some).map fun parameters => TileSet.of layer gridset format parameters
  return (Std.ExtTreeMap.ofList (sets.map fun set => (set, ()))).keys

/-- An atlas that has forgotten the pyramids of a layer. -/
def forget (atlas : Atlas) (layer : String) : Atlas := { atlas with drawn := atlas.drawn.erase layer }

end Atlas

end TileDepot
