import TileDepot.Number.Word
import TileDepot.Tile.Tile

/-!
# Handover

Tiles made on the way to another tile wait here for a short time to be handed over once. Of more than a hundred tiles the
one that has waited longest goes; a tile that has waited for more than a second is not handed over any more.
-/

namespace TileDepot

/-- A payload that waits, and since when, in milliseconds. -/
structure Waiting where
  blob : ByteArray
  since : Int
deriving Inhabited

/-- Tiles that wait, and the order in which they came. -/
structure Handover where
  waiting : Std.ExtTreeMap TileKey Waiting
  order : List TileKey

namespace Handover

/-- How many tiles may wait. -/
def capacity : Nat := 100

/-- How long a tile may wait, in milliseconds. -/
def patience : Int := 1000

/-- Nothing waits. -/
def empty : Handover := ⟨∅, []⟩

instance : Inhabited Handover := ⟨empty⟩

/-- No more tiles than may wait: while there are more in the order, the first of it goes. -/
def trim (waiting : Std.ExtTreeMap TileKey Waiting) : List TileKey → Handover
  | [] => ⟨waiting, []⟩
  | key :: order => if capacity < (key :: order).length then trim (waiting.erase key) order else ⟨waiting, key :: order⟩

/-- A tile that comes to wait; it takes the place of one of the same key, and comes last. -/
def put (handover : Handover) (key : TileKey) (blob : ByteArray) (now : Int) : Handover :=
  let order := if handover.waiting.contains key then handover.order.filter (· != key) else handover.order
  trim (handover.waiting.insert key ⟨blob, now⟩) (order ++ [key])

/-- A tile that comes to wait, if it has a payload. -/
def offer (handover : Handover) (tile : Tile) (now : Int) : Handover :=
  match tile.blob with
  | none => handover
  | some blob => handover.put tile.key blob now

/-- A tile handed over, unless it has waited too long; in either case it waits no more. How long it has waited is the
difference of two times in a word, which wraps around. -/
def take (handover : Handover) (key : TileKey) (now : Int) : Option ByteArray × Handover :=
  match handover.waiting[key]? with
  | none => (none, handover)
  | some waiting =>
    (if Word.wrap 64 (now - waiting.since) ≤ patience then some waiting.blob else none,
      ⟨handover.waiting.erase key, handover.order.filter (· != key)⟩)

/-- A tile asked for: whether it was handed over, and the tile with the payload that was, or with none. -/
def collect (handover : Handover) (tile : Tile) (now : Int) : (Bool × Tile) × Handover :=
  let (blob, handover) := handover.take tile.key now
  ((blob.isSome, tile.withBlob blob), handover)

end Handover

end TileDepot
