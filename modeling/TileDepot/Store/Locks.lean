import TileDepot.Store.Gate

/-!
# Locks of stores and sweeps

Stores and sweeps only ask locks for two things: to take a key, which may fail, and to give it back, which may fail after
the key has been given back.
-/

namespace TileDepot

/-- What locks are asked for. -/
structure Locks (σ : Type) where
  acquire : String → Run σ Unit
  release : String → Run σ Unit

/-- Locks that rehearse failures: the keys that cannot be taken, and those whose return is reported as failed. The key `*`
stands for all keys. -/
structure LockPlan where
  name : String
  refused : List String
  troubled : List String
deriving Repr, DecidableEq, Inhabited

namespace LockPlan

/-- Locks that never fail. -/
def reliable : LockPlan := ⟨"", [], []⟩

/-- Whether a list of keys names a key. -/
def names (keys : List String) (key : String) : Bool := keys.contains "*" || keys.contains key

/-- The locks of a plan. No two runs overlap at a key, so that a key that is not refused is free. -/
def locks (plan : LockPlan) (pause : Pause σ) : Locks σ where
  acquire key := do
    Run.change (pause ⟨plan.name, "acquire", false⟩)
    if names plan.refused key then throw (.lockTimeout key 0)
  release key := do if names plan.troubled key then throw (.storage s!"cannot release {key}")

end LockPlan

end TileDepot
