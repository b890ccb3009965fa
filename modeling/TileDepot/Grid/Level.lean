import TileDepot.Error
import TileDepot.Number.Logarithm
import TileDepot.Number.Word

/-!
# Levels

A level is the rectangle of tiles that a gridset covers at one zoom, cut into equal pages from its least corner on. The
pages of the last column and of the last row may reach beyond the rectangle.

Pages grow with the level they divide: along an axis of `n` tiles a page holds `n / log n` tiles, the logarithm to base
1.1, rounded up. Short axes get pages of one tile, and no axis is divided into more than a few hundred pages.
-/

namespace TileDepot

/-- The base of the logarithm that sets the number of pages along an axis. -/
def pageLogBase : Float := 1.1

/-- How many tiles a page holds along an axis of `tiles` tiles. -/
def pageSide (tiles : Int) : Nat :=
  if tiles ≤ 1 then 1
  else
    let n := Float.ofInt tiles
    let pages := Binary64.ln n / Binary64.ln pageLogBase
    max 1 ((Binary64.ofFloat (n / pages)).toInt .up 1 Binary64.maxUInt32).toNat

/-- A page is never empty. -/
theorem pageSide_pos (tiles : Int) : 0 < pageSide tiles := by
  unfold pageSide
  split
  · decide
  · exact Nat.lt_of_lt_of_le Nat.one_pos (Nat.le_max_left 1 _)

/-- A rectangle of tiles at a zoom, its borders included. As given by a user it may be empty. -/
structure Coverage where
  minX : Int
  minY : Int
  maxX : Int
  maxY : Int
  zoom : Int
deriving Repr, DecidableEq, Inhabited

namespace Coverage

/-- Whether a tile column and row lie in the rectangle. -/
def contains (area : Coverage) (x y : Int) : Bool :=
  area.minX ≤ x && x ≤ area.maxX && area.minY ≤ y && y ≤ area.maxY

/-- The rectangle and its zoom as a list of five numbers. -/
def text (area : Coverage) : String :=
  s!"[{area.minX}, {area.minY}, {area.maxX}, {area.maxY}, {area.zoom}]"

end Coverage

/-- The page layout of one zoom. -/
structure Level where
  minX : Int
  minY : Int
  maxX : Int
  maxY : Int
  /-- Tiles along a page. -/
  pageWidth : Nat
  /-- Tiles down a page. -/
  pageHeight : Nat
  minX_le : minX ≤ maxX
  minY_le : minY ≤ maxY
  pageWidth_pos : 0 < pageWidth
  pageHeight_pos : 0 < pageHeight

namespace Level

/-- The layout of a covered rectangle. -/
def ofCoverage (area : Coverage) (hx : area.minX ≤ area.maxX) (hy : area.minY ≤ area.maxY) : Level where
  minX := area.minX
  minY := area.minY
  maxX := area.maxX
  maxY := area.maxY
  pageWidth := pageSide (1 + area.maxX - area.minX)
  pageHeight := pageSide (1 + area.maxY - area.minY)
  minX_le := hx
  minY_le := hy
  pageWidth_pos := pageSide_pos _
  pageHeight_pos := pageSide_pos _

/-- Tiles along the level. -/
def width (level : Level) : Nat := (1 + level.maxX - level.minX).toNat

/-- Tiles down the level. -/
def height (level : Level) : Nat := (1 + level.maxY - level.minY).toNat

/-- Pages along the level. -/
def columns (level : Level) : Nat := (level.width + level.pageWidth - 1) / level.pageWidth

/-- Pages down the level. -/
def rows (level : Level) : Nat := (level.height + level.pageHeight - 1) / level.pageHeight

/-- Tiles of a full page. -/
def tilesPerPage (level : Level) : Nat := level.pageWidth * level.pageHeight

/-- Pages of the level. -/
def pageCount (level : Level) : Nat := level.columns * level.rows

/-- Whether a tile lies in the level. -/
def contains (level : Level) (x y : Int) : Bool :=
  level.minX ≤ x && x ≤ level.maxX && level.minY ≤ y && y ≤ level.maxY

/-- The column and row of the page that holds a tile of the level. -/
def pageOf (level : Level) (x y : Int) : Nat × Nat :=
  ((x - level.minX).toNat / level.pageWidth, (y - level.minY).toNat / level.pageHeight)

/-- The rectangle of tiles that a page stands for, its corners held in words of 64 bits. -/
def pageArea (level : Level) (zoom column row : Nat) : Coverage where
  minX := Word.wrap 64 (level.minX + column * level.pageWidth)
  minY := Word.wrap 64 (level.minY + row * level.pageHeight)
  maxX := Word.wrap 64 (level.minX + column * level.pageWidth + level.pageWidth - 1)
  maxY := Word.wrap 64 (level.minY + row * level.pageHeight + level.pageHeight - 1)
  zoom := zoom

/-- The layout in words. -/
def text (level : Level) : String :=
  let pages := s!"Pages: {level.columns} x {level.rows} ({level.pageCount})"
  let tiles := s!"tiles: {level.pageWidth} x {level.pageHeight} ({level.tilesPerPage})"
  pages ++ ", " ++ tiles

/-! ## Helper lemmas -/

/-- A tile lies in a level when each of its coordinates lies between the borders. -/
theorem contains_iff {level : Level} {x y : Int} :
    level.contains x y = true ↔ (level.minX ≤ x ∧ x ≤ level.maxX) ∧ level.minY ≤ y ∧ y ≤ level.maxY := by
  simp [contains, and_assoc]

/-- A page has room for at least one tile. -/
theorem tilesPerPage_pos (level : Level) : 0 < level.tilesPerPage :=
  Nat.mul_pos level.pageWidth_pos level.pageHeight_pos

end Level

end TileDepot
