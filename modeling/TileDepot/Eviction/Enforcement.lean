import TileDepot.Eviction.Accountant

/-!
# Enforcement

A quota is enforced by sweep after sweep: each one is to cover what is in excess before it. The end has come when nothing is
in excess, or when a sweep has emptied no page. A page that has been emptied is no candidate until somebody puts a tile into
it, so that there are no more sweeps that empty a page than there are candidates at the start.
-/

namespace TileDepot

/-- The accountant of a depot and what its sweeps work with. -/
structure Enforcer (σ : Type) where
  accountant : Cell σ Accountant
  sweeper : Sweeper σ

namespace Enforcer

variable {σ : Type}

/-- Something that the accountant reads in the ledger. -/
def consult (enforcer : Enforcer σ) (view : Accountant → Ledger → α) : Run σ α :=
  Run.look fun state => view (enforcer.accountant.read state) (enforcer.sweeper.books.read state).ledger

/-- Sweeps until nothing is in excess, at most as many as the first number says. -/
def sweepUntil (enforcer : Enforcer σ) (policy : Policy) (excess : Accountant → Ledger → ByteSize)
    (sets : Accountant → Ledger → List TileSet) : Nat → Swept → Run σ Swept
  | 0, total => return total
  | rounds + 1, total => do
    let deficit ← enforcer.consult excess
    if !deficit.isPositive then return total
    let swept ← enforcer.sweeper.sweep (← enforcer.consult sets) policy deficit
    if swept.pages = 0 then return total.merge swept
    enforcer.sweepUntil policy excess sets rounds (total.merge swept)

/-- Sweeps until nothing is in excess or no page is left. -/
def sweepAll (enforcer : Enforcer σ) (policy : Policy) (excess : Accountant → Ledger → ByteSize)
    (sets : Accountant → Ledger → List TileSet) : Run σ Swept := do
  if !(← enforcer.consult excess).isPositive then return .nothing
  let entries ← enforcer.sweeper.books.run (Sweeper.candidates (← enforcer.consult sets))
  enforcer.sweepUntil policy excess sets (entries.length + 1) .nothing

/-- The quota of a layer enforced. A layer without a quota is left alone. -/
def enforce (enforcer : Enforcer σ) (layer : String) : Run σ Swept := do
  if (← enforcer.consult fun accountant _ => accountant.allowed layer).isNone then return .nothing
  let policy ← Run.result (← enforcer.consult fun accountant _ => accountant.policyFor layer)
  enforcer.sweepAll policy (fun accountant ledger => (accountant.excess ledger layer).getD .zero)
    (fun _ ledger => ledger.tileSetsOf layer)

/-- The global quota enforced. -/
def enforceGlobal (enforcer : Enforcer σ) : Run σ Swept := do
  let policy ← Run.result (← enforcer.consult fun accountant _ => accountant.globalPolicy)
  enforcer.sweepAll policy Accountant.globalExcess Accountant.globalTileSets

end Enforcer

end TileDepot
