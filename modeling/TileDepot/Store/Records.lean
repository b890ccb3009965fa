import TileDepot.Store.Gate

/-!
# Records

Records say of every tile in a store how large its payload is and when it was made. A record can expire: the tile then counts
as absent, though its payload is still stored.
-/

namespace TileDepot

/-- What is recorded of a tile. -/
structure Record where
  size : Nat
  created : Int
  expired : Bool
deriving Repr, DecidableEq, Inhabited

/-- What records can be asked for. -/
inductive RecordCall where
  | get (key : TileKey)
  | put (tile : Tile)
  | delete (key : TileKey)
  | deleteLayer (layer : String)
  | deleteRange (range : TileRange)
  | rename (layer target : String)
  | expire (range : TileRange)

namespace RecordCall

/-- What an answer to a call is: the record of a tile, if there is one that has not expired; for a change, whether there was
anything to change. -/
abbrev Answer : RecordCall → Type
  | get _ => Option Record
  | put _ => Unit
  | delete _ | deleteLayer _ | deleteRange _ | rename .. | expire _ => Bool

/-- The name of a kind of call. -/
def verb : RecordCall → String
  | get _ => "get"
  | put _ => "put"
  | delete _ => "delete"
  | deleteLayer _ => "delete_layer"
  | deleteRange _ => "delete_range"
  | rename .. => "rename"
  | expire _ => "expire"

end RecordCall

/-- Records as part of a larger state. -/
abbrev RecordStore (σ : Type) := (call : RecordCall) → Run σ call.Answer

/-- Records by tile. -/
structure Records where
  byTile : Std.ExtTreeMap TileKey Record

namespace Records

/-- No records. -/
def empty : Records := ⟨∅⟩

instance : Inhabited Records := ⟨empty⟩

/-- The record of a tile, unless it has expired. -/
def live (records : Records) (key : TileKey) : Option Record := records.byTile[key]?.filter fun record => !record.expired

/-- The record of a tile written; its size is the one that the tile carries. -/
def put (records : Records) (tile : Tile) : Records :=
  ⟨records.byTile.insert tile.key ⟨tile.size, tile.created, false⟩⟩

/-- The records without those that are doomed, and whether there were any. -/
def drop (records : Records) (doomed : TileKey → Bool) : Bool × Records :=
  let kept := records.byTile.filter fun key _ => !doomed key
  (kept.size < records.byTile.size, ⟨kept⟩)

/-- The records of a layer moved to another, and whether there were any. A record moved replaces the one in its place. -/
def rename (records : Records) (layer target : String) : Bool × Records :=
  let moved := records.byTile.filter fun key _ => key.layer == layer
  (!moved.isEmpty, ⟨moved.foldl (fun byTile key record => (byTile.erase key).insert (key.renamed target) record)
    records.byTile⟩)

/-- The records of a range expired, and whether there were any. -/
def expire (records : Records) (range : TileRange) : Bool × Records :=
  (records.byTile.keys.any range.contains,
    ⟨records.byTile.map fun key record => if range.contains key then { record with expired := true } else record⟩)

/-- A call answered by records. -/
def answer (records : Records) : (call : RecordCall) → call.Answer × Records
  | .get key => (records.live key, records)
  | .put tile => ((), records.put tile)
  | .delete key => (records.byTile.contains key, ⟨records.byTile.erase key⟩)
  | .deleteLayer layer => records.drop (·.layer == layer)
  | .deleteRange range => records.drop range.contains
  | .rename layer target => records.rename layer target
  | .expire range => records.expire range

/-- Records that are part of a larger state. -/
def recordStore (cell : Cell σ Records) : RecordStore σ := fun call => cell.step (·.answer call)

/-- Records behind a gate. -/
def behindGate (cell : Cell σ Gate) (name : String) (pause : Pause σ) (records : RecordStore σ) : RecordStore σ :=
  fun call => Gate.pass cell name call.verb pause (records call)

end Records

end TileDepot
