import TileDepot.Page.TileSet
import TileDepot.Tile.Parameters

/-!
# Tiles

A tile is addressed by its layer, gridset, format and parameters and by its column, row and zoom. In flight it carries the
parameters in full, its payload, and when it was made.
-/

namespace TileDepot

/-- What identifies a tile. -/
structure TileKey where
  layer : String
  gridset : String
  format : String
  parameters : Option String
  x : Int
  y : Int
  z : Int
deriving Repr, DecidableEq, Inhabited

namespace TileKey

/-- The order of tile keys: field by field. -/
def order : TileKey → TileKey → Ordering :=
  compareLex (compareOn layer) (compareLex (compareOn gridset) (compareLex (compareOn format)
    (compareLex (compareOn parameters) (compareLex (compareOn x) (compareLex (compareOn y) (compareOn z))))))

instance : Ord TileKey := ⟨order⟩

instance : Std.TransOrd TileKey :=
  inferInstanceAs (Std.TransCmp (compareLex _ (compareLex _ (compareLex _ (compareLex _ (compareLex _ (compareLex _ _)))))))

instance : Std.LawfulEqOrd TileKey where
  eq_of_compare {a b} h := by
    change order a b = .eq at h
    simp only [order, compareLex, compareOn, Ordering.then_eq_eq] at h
    obtain ⟨hl, hg, hf, hp, hx, hy, hz⟩ := h
    have hl := Std.LawfulEqOrd.eq_of_compare (α := String) hl
    have hg := Std.LawfulEqOrd.eq_of_compare (α := String) hg
    have hf := Std.LawfulEqOrd.eq_of_compare (α := String) hf
    have hp := Std.LawfulEqOrd.eq_of_compare (α := Option String) hp
    have hx := Std.LawfulEqOrd.eq_of_compare (α := Int) hx
    have hy := Std.LawfulEqOrd.eq_of_compare (α := Int) hy
    have hz := Std.LawfulEqOrd.eq_of_compare (α := Int) hz
    cases a
    cases b
    simp_all

/-- The key in words. -/
def text (key : TileKey) : String :=
  let parameters := key.parameters.getD "default"
  s!"{key.layer}/{key.gridset}/{key.format}/{parameters}/{key.z}/{key.x}/{key.y}"

/-- The same tile under another layer. -/
def renamed (key : TileKey) (layer : String) : TileKey := { key with layer := layer }

/-- The tile set of the tile. -/
def tileSet (key : TileKey) : TileSet := .of key.layer key.gridset key.format key.parameters

end TileKey

/-- What is stored of a tile. -/
structure Payload where
  blob : ByteArray
  /-- When the tile was made, in milliseconds since the epoch. -/
  created : Int
deriving Inhabited

/-- The bytes of a payload. -/
def Payload.size (payload : Payload) : Nat := payload.blob.size

/-- A tile in flight. Without a payload it asks for one. -/
structure Tile where
  layer : String
  x : Int
  y : Int
  z : Int
  gridset : String
  format : String
  parameters : Parameters
  parametersId : Option String
  blob : Option ByteArray
  size : Nat
  /-- When the tile was made, in milliseconds since the epoch. -/
  created : Int

namespace Tile

/-- The request for a tile. -/
def request (layer : String) (x y z : Int) (gridset format : String) (parameters : Parameters) : Tile :=
  ⟨layer, x, y, z, gridset, format, parameters, parameters.identifier, none, 0, 0⟩

/-- The tile with a payload, or with none; its size is that of the payload. -/
def withBlob (tile : Tile) (blob : Option ByteArray) : Tile :=
  { tile with blob := blob, size := (blob.map ByteArray.size).getD 0 }

/-- The tile with what was stored of it. -/
def fill (tile : Tile) (payload : Payload) : Tile :=
  { tile.withBlob (some payload.blob) with created := payload.created }

/-- What is to be stored of the tile, if it has a payload. -/
def payload? (tile : Tile) : Option Payload := tile.blob.map fun blob => ⟨blob, tile.created⟩

/-- What identifies the tile. -/
def key (tile : Tile) : TileKey :=
  ⟨tile.layer, tile.gridset, tile.format, tile.parametersId, tile.x, tile.y, tile.z⟩

/-- Whether the tile was asked for with parameters. -/
def hasParameters (tile : Tile) : Bool := !tile.parameters.isEmpty

/-- The tile set of the tile. -/
def tileSet (tile : Tile) : TileSet := .of tile.layer tile.gridset tile.format tile.parametersId

/-- The tile in words. -/
def text (tile : Tile) : String := s!"TileObject[{tile.key.text}]"

end Tile

end TileDepot
