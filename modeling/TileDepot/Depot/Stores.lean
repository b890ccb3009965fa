import TileDepot.Depot.State

/-!
# The stores of a depot

The stores of a plan, each made of the stores behind it, as runs on a depot or on a larger state; the broker in front of
them; and the depot as it is opened, with all stores empty. A call may be held at a point on its way, while other calls go by.
-/

namespace TileDepot

/-- A store of a depot that is part of a larger state. -/
def StoreTree.tileStore (depot : Cell σ Depot) (pause : Pause σ) : StoreTree → TileStore σ
  | resident name =>
    Resident.tileStore ((Depot.residentCell name).inside depot) fun listener event state =>
      depot.write (Depot.hear listener event (depot.read state)) state
  | cached name _ locks inner =>
    CacheAside.tileStore ((Depot.cacheCell name).inside depot) (locks.map (·.locks pause)) (inner.tileStore depot pause)
  | twoTier _ front backing => TwoTier.tileStore (front.tileStore depot pause) (backing.tileStore depot pause)
  | gated name _ inner => Gate.before ((Depot.gateCell name).inside depot) name pause (inner.tileStore depot pause)

namespace DepotPlan

variable {σ : Type}

/-- The store of a name, or else the outermost one. -/
def storeAt (plan : DepotPlan) (name : Option String) : StoreTree := (name.bind plan.tree.find?).getD plan.tree

/-- The broker of a depot. -/
def broker (plan : DepotPlan) (depot : Cell σ Depot) (pause : Pause σ) : Broker σ where
  store := plan.tree.tileStore depot pause
  records := match plan.records with
    | none => none
    | some records =>
      if records.disabled then none
      else some (Records.behindGate (Depot.recordsGateCell.inside depot) records.name pause
        (Records.recordStore (Depot.recordsCell.inside depot)))

/-- Nobody holds a call. -/
def unheld : Pause σ := fun _ state => state

/-- A depot as it is before its first step. -/
def opened (plan : DepotPlan) (clock : Clock) (table : CoverageTable) (accountant : Option Accountant) : Depot where
  clock := clock
  atlas := .ofTable table
  ledger := .empty
  loaded := none
  residents := .ofList (plan.tree.nodes.filterMap fun
    | .resident name => some (name, Resident.empty)
    | _ => none)
  caches := .ofList (plan.tree.nodes.filterMap fun
    | .cached name settings _ _ => some (name, TileCache.empty settings)
    | _ => none)
  gates := .ofList (plan.tree.nodes.filterMap fun
    | .gated name refused _ => some (name, Gate.refusing refused)
    | _ => none)
  records := .empty
  recordsGate := .refusing ((plan.records.map (·.refused)).getD [])
  handover := .empty
  saved := none
  accountant := accountant
  monitor := none
  cancelled := false
  truncated := []
  log := []

/-- The depot once its accountant listens to the outermost store. -/
def withAccountantListening (plan : DepotPlan) (depot : Depot) : Depot :=
  ((plan.tree.tileStore .whole unheld (.addListener .accountant)).onState depot).2.nextStep false

end DepotPlan

/-- A call that is held at a point, when it first comes there, until something else is done; a call that never comes there
ends first. Whether the call was held, what was given in between, and what the call gave. -/
def Depot.overlap (point : HoldPoint) (during : Depot → ρ × Depot)
    (call : Cell (Depot × Option ρ) Depot → Pause (Depot × Option ρ) → Depot × Option ρ → β × (Depot × Option ρ))
    (depot : Depot) : (Bool × ρ × β) × Depot :=
  let pause : Pause (Depot × Option ρ) := fun reached (depot, done) =>
    match done with
    | some _ => (depot, done)
    | none =>
      if reached = point then
        let (given, depot) := during depot
        (depot, some given)
      else (depot, none)
  match call .first pause (depot, none) with
  | (answer, depot, some given) => ((true, given, answer), depot)
  | (answer, depot, none) =>
    let (given, depot) := during depot
    ((false, given, answer), depot)

end TileDepot
