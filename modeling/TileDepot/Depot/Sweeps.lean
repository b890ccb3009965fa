import TileDepot.Depot.Stores

/-!
# The sweeps of a depot

Sweeps are asked for directly, by the accountant, or by the monitor. All of them truncate pages in the same way; what differs
is the ledger they go by and what cancels them.
-/

namespace TileDepot

namespace DepotPlan

/-- A range truncated as the plan has it: counted, cancelled or refused at some counts, and deleted from the outermost store. -/
def truncate (plan : DepotPlan) (cancelled : Cell Depot Bool) (range : TileRange) : Run Depot Bool := do
  let count ← Run.step fun depot => (depot.truncated.length + 1, { depot with truncated := depot.truncated ++ [range] })
  if plan.truncation.cancelAt = some count then cancelled.change fun _ => true
  if plan.truncation.failAt.contains count then throw (.storage "breeder refused")
  if plan.truncation.idle then return true
  plan.tree.tileStore .whole unheld (.deleteRange range)

/-- The sweeper of a depot, with the books it goes by and the token that cancels it. -/
def sweeper (plan : DepotPlan) (books : Cell Depot Books) (cancelled : Cell Depot Bool) : Sweeper Depot where
  books := books
  now depot := depot.clock.minutes
  truncate := plan.truncate cancelled
  locks := plan.locks.locks unheld
  cancelled := cancelled.read

/-- The accountant of a depot with its sweeper. -/
def enforcer (plan : DepotPlan) (cancelled : Cell Depot Bool) : Enforcer Depot where
  accountant := Depot.accountantCell
  sweeper := plan.sweeper Depot.booksCell cancelled

/-- A sweep by the books that are consulted directly. -/
def sweep (plan : DepotPlan) (sets : List TileSet) (policy : Policy) (deficit : ByteSize) : Run Depot Swept :=
  (plan.sweeper Depot.currentBooksCell Depot.cancelledCell).sweep sets policy deficit

/-- The quota of a layer enforced. -/
def enforce (plan : DepotPlan) (layer : String) : Run Depot Swept :=
  (plan.enforcer Depot.cancelledCell).enforce layer

/-- The global quota enforced. -/
def enforceGlobal (plan : DepotPlan) : Run Depot Swept := (plan.enforcer Depot.cancelledCell).enforceGlobal

/-- One look of the monitor: the targets for which sweeps were started, and those that are in flight then. -/
def look (plan : DepotPlan) : Run Depot (List String × List String) := do
  let started ← (plan.enforcer Depot.stoppedCell).look Depot.monitorCell
  return (started, (← Depot.monitorCell.get).inFlight)

/-- Sweeps of the monitor run one after the other. -/
def runSweeps (plan : DepotPlan) (targets : List String) : Run Depot Unit :=
  (plan.enforcer Depot.stoppedCell).runSweeps Depot.monitorCell targets

/-- A number of looks of the monitor, which may be shut down after them, before the sweeps they have started are run; for
each look how many it has started, and which were in flight then. -/
def poll (plan : DepotPlan) (looks : Nat) (stop : Bool) : Run Depot (List (Nat × List String)) := do
  let seen ← (List.range looks).mapM fun _ => plan.look
  if stop then Depot.monitorCell.change Monitor.stop
  plan.runSweeps (seen.flatMap (·.1))
  return seen.map fun (started, inFlight) => (started.length, inFlight)

/-- The monitor at work for some time, in milliseconds; it looks at the start and after every interval. Then it is shut
down. -/
def watch (plan : DepotPlan) (millis : Nat) : Run Depot Unit := do
  let interval := (← Depot.monitorCell.get).interval
  (plan.enforcer Depot.stoppedCell).watch Depot.monitorCell ((millis + interval - 1) / interval)
  Depot.monitorCell.change Monitor.stop

end DepotPlan

end TileDepot
