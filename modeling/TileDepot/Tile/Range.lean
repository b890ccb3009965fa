import TileDepot.Grid.Level
import TileDepot.Tile.Tile

/-!
# Ranges of tiles

A range stands for the tiles of one tile set in a span of zooms, with a rectangle for some of the zooms; at the other zooms
of the span every tile belongs to it.
-/

namespace TileDepot

/-- A rectangle of tiles, its borders included. -/
structure Bounds where
  minX : Int
  minY : Int
  maxX : Int
  maxY : Int
deriving Repr, DecidableEq, Inhabited

/-- The tiles of one tile set in a span of zooms and in the rectangles given for them. -/
structure TileRange where
  layer : String
  gridset : String
  format : String
  parameters : Option String
  firstZoom : Nat
  lastZoom : Nat
  bounds : Std.ExtTreeMap Nat Bounds

namespace TileRange

/-- The rectangles of a range by zoom, a word of 32 bits; a later rectangle replaces an earlier one, and one with a zoom
below zero is passed over. -/
def boundsOf (areas : List Coverage) : Std.ExtTreeMap Nat Bounds :=
  areas.foldl (fun bounds area =>
    if area.zoom < 0 then bounds
    else bounds.insert (area.zoom.toNat % Nat.pow 2 32) ⟨area.minX, area.minY, area.maxX, area.maxY⟩) ∅

/-- The range of a tile set in a span of zooms. -/
def of (layer gridset format : String) (parameters : Option String) (firstZoom lastZoom : Nat) (areas : List Coverage) :
    TileRange :=
  ⟨layer, gridset, format, parameters, firstZoom, lastZoom, boundsOf areas⟩

/-- The tiles of a tile set in the rectangle of a page. -/
def ofPage (set : TileSet) (area : Coverage) : TileRange :=
  let zoom := area.zoom.toNat % Nat.pow 2 32
  of set.layer set.gridset set.format set.parameters zoom zoom [area]

/-- Whether a tile belongs to the range. -/
def contains (range : TileRange) (key : TileKey) : Bool :=
  key.layer == range.layer && key.gridset == range.gridset && key.format == range.format
    && key.parameters == range.parameters
    && range.firstZoom ≤ key.z && key.z ≤ range.lastZoom
    && match range.bounds[key.z.toNat]? with
      | some b => b.minX ≤ key.x && key.x ≤ b.maxX && b.minY ≤ key.y && key.y ≤ b.maxY
      | none => true

/-- The range in words. -/
def text (range : TileRange) : String :=
  s!"TileRange[{range.layer}/{range.gridset}/{range.format} zoom {range.firstZoom}..={range.lastZoom}]"

end TileRange

end TileDepot
