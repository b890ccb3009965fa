import Std.Data.ExtTreeSet
import TileDepot.Error
import TileDepot.Text.SipHash

/-!
# Lock shards

Keys are spread over a fixed number of shards by their hash, and a lock on a key holds the shard of the key. Different keys
may share a shard and then exclude each other.
-/

namespace TileDepot

/-- A number of shards, and those that are held. -/
structure LockShards where
  count : Nat
  count_pos : 0 < count
  held : Std.ExtTreeSet Nat

namespace LockShards

/-- Shards that nobody holds. -/
def ofCount (count : Nat) : Except Error LockShards :=
  if h : 0 < count then .ok ⟨count, h, ∅⟩
  else .error (.config "lock shard count shall be a positive integer")

/-- The shard of a key. -/
def shardOf (shards : LockShards) (key : String) : Nat := Text.SipHash.hashText key % shards.count

/-- Whether a shard is free. -/
def isFree (shards : LockShards) (shard : Nat) : Bool := !shards.held.contains shard

/-- The shards with one of them held. -/
def hold (shards : LockShards) (shard : Nat) : LockShards := { shards with held := shards.held.insert shard }

/-- The shards with one of them free. -/
def free (shards : LockShards) (shard : Nat) : LockShards := { shards with held := shards.held.erase shard }

end LockShards

end TileDepot
