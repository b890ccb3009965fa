import TileDepot.Eviction.Monitor
import TileDepot.Store.Broker
import TileDepot.Store.CacheAside
import TileDepot.Store.Handover
import TileDepot.Store.Resident
import TileDepot.Store.TwoTier

/-!
# Plans

A plan says how a depot is built: which stores it has and how they stand before one another, whether there are records, and
which failures of sweeps are rehearsed.
-/

namespace TileDepot

/-- The stores of a depot. Every store has a name of its own. -/
inductive StoreTree where
  /-- A resident store. -/
  | resident (name : String)
  /-- A cache beside a store. -/
  | cached (name : String) (settings : CacheSettings) (locks : Option LockPlan) (inner : StoreTree)
  /-- A front store and a backing store. -/
  | twoTier (name : String) (front backing : StoreTree)
  /-- A gate before a store. -/
  | gated (name : String) (refused : List String) (inner : StoreTree)
deriving Inhabited

namespace StoreTree

/-- The name of the outermost store. -/
def name : StoreTree → String
  | resident name | cached name .. | twoTier name .. | gated name .. => name

/-- All stores, each before those that it is made of. -/
def nodes : StoreTree → List StoreTree
  | tree@(resident _) => [tree]
  | tree@(cached _ _ _ inner) | tree@(gated _ _ inner) => tree :: inner.nodes
  | tree@(twoTier _ front backing) => tree :: (front.nodes ++ backing.nodes)

/-- The store of a name. -/
def find? (tree : StoreTree) (name : String) : Option StoreTree := tree.nodes.find? (·.name == name)

end StoreTree

/-- The records of a broker, which stand behind a gate. -/
structure RecordsPlan where
  name : String
  refused : List String
  /-- Whether the broker is to do without the records. -/
  disabled : Bool
deriving Repr, DecidableEq, Inhabited

/-- What happens when a page is to be emptied. The truncations of a step are counted from one. -/
structure TruncationPlan where
  /-- Nothing is deleted. -/
  idle : Bool
  /-- The truncation at which the sweep is cancelled. -/
  cancelAt : Option Nat
  /-- The truncations that fail. -/
  failAt : List Nat
deriving Repr, DecidableEq, Inhabited

/-- How a depot is built. -/
structure DepotPlan where
  tree : StoreTree
  records : Option RecordsPlan
  truncation : TruncationPlan
  /-- The locks of sweeps. -/
  locks : LockPlan
deriving Inhabited

end TileDepot
