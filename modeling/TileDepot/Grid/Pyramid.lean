import Std.Data.ExtTreeMap
import TileDepot.Grid.Level

/-!
# Page pyramids

A pyramid holds one level for every zoom that a gridset covers. It answers in which page a tile lies, which tiles a page
stands for, and which pages there are.
-/

namespace TileDepot

/-- A page of a pyramid: its column and row at a zoom. -/
structure PageIndex where
  column : Nat
  row : Nat
  zoom : Nat
deriving Repr, DecidableEq, Inhabited

/-- The levels of a gridset by zoom. -/
structure Pyramid where
  levels : Std.ExtTreeMap Nat Level

namespace Pyramid

/-- A pyramid with the level of one more rectangle, which replaces a level of the same zoom. -/
def insertCoverage (pyramid : Pyramid) (area : Coverage) : Except Error Pyramid :=
  if area.zoom < 0 ∨ area.zoom > Binary64.maxUInt32 then .error (.invalidArgument s!"invalid zoom level {area.zoom}")
  else if h : area.minX ≤ area.maxX ∧ area.minY ≤ area.maxY then
    .ok ⟨pyramid.levels.insert area.zoom.toNat (Level.ofCoverage area h.1 h.2)⟩
  else .error (.invalidArgument s!"empty coverage {area.text} at zoom level {area.zoom}")

/-- The pyramid of some rectangles, at least one. -/
def ofCoverages (areas : List Coverage) : Except Error Pyramid :=
  if areas.isEmpty then .error (.invalidArgument "page pyramid needs at least one coverage")
  else areas.foldlM insertCoverage ⟨∅⟩

/-- The zooms with a level, the lowest first. -/
def zooms (pyramid : Pyramid) : List Nat := pyramid.levels.keys

/-- The lowest zoom. -/
def lowestZoom (pyramid : Pyramid) : Nat := pyramid.zooms.head?.getD 0

/-- The highest zoom. -/
def highestZoom (pyramid : Pyramid) : Nat := pyramid.zooms.getLast?.getD 0

/-- The level of a zoom. -/
def level (pyramid : Pyramid) (zoom : Nat) : Except Error Level :=
  match pyramid.levels[zoom]? with
  | some level => .ok level
  | none => .error (.invalidArgument
      s!"zoom level {zoom} outside [{pyramid.lowestZoom}, {pyramid.highestZoom}] or without coverage")

/-- The tiles of a full page at a zoom. -/
def tilesPerPage (pyramid : Pyramid) (zoom : Nat) : Except Error Nat := do
  return (← pyramid.level zoom).tilesPerPage

/-- The page that holds a tile. -/
def pageOf (pyramid : Pyramid) (x y : Int) (zoom : Nat) : Except Error PageIndex := do
  let level ← pyramid.level zoom
  if level.contains x y then
    let (column, row) := level.pageOf x y
    return ⟨column, row, zoom⟩
  else
    throw (.invalidArgument
      s!"tile ({x}, {y}, {zoom}) outside coverage [{level.minX}, {level.minY}, {level.maxX}, {level.maxY}]")

/-- The page that holds a tile, written into a buffer of three places; the buffer of another length is refused. -/
def pageOfInto (pyramid : Pyramid) (x y : Int) (zoom : Nat) (buffer : List Nat) : Except Error (List Nat) := do
  if buffer.length = 3 then
    let page ← pyramid.pageOf x y zoom
    return [page.column, page.row, page.zoom]
  else throw (.invalidArgument s!"page index target must have length 3, got {buffer.length}")

/-- The rectangle of tiles that a page stands for. -/
def areaOf (pyramid : Pyramid) (page : PageIndex) : Except Error Coverage := do
  let level ← pyramid.level page.zoom
  if page.column < level.columns ∧ page.row < level.rows then
    return level.pageArea page.zoom page.column page.row
  else
    throw (.invalidArgument
      s!"page ({page.column}, {page.row}) outside {level.columns} x {level.rows} pages at zoom level {page.zoom}")

/-- The pages of one level, row by row. -/
def levelPages (zoom : Nat) (level : Level) : List PageIndex :=
  (List.range level.rows).flatMap fun row => (List.range level.columns).map fun column => ⟨column, row, zoom⟩

/-- All pages, the lowest zoom first. -/
def pages (pyramid : Pyramid) : List PageIndex :=
  pyramid.levels.toList.flatMap fun (zoom, level) => levelPages zoom level

/-- How many pages there are. -/
def pageCount (pyramid : Pyramid) : Nat :=
  pyramid.levels.foldl (fun total _ level => total + level.pageCount) 0

end Pyramid

end TileDepot
