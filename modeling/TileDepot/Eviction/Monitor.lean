import TileDepot.Eviction.Enforcement

/-!
# Monitors

A monitor looks from time to time for whatever is over its quota, and starts a sweep for each layer that is, and one for the
layers under the global quota together. A target whose sweep has not ended gets no second one. Once the monitor has been
shut down, the sweeps it has started end without doing anything.
-/

namespace TileDepot

/-- The time between two looks in milliseconds, the targets of sweeps that have not ended, and whether the monitor has been
shut down. -/
structure Monitor where
  interval : Nat
  inFlight : List String
  stopped : Bool
deriving Repr, DecidableEq, Inhabited

namespace Monitor

/-- The target that stands for the layers under the global quota. -/
def globalTarget : String := "<global>"

/-- A monitor for a depot with some settings. -/
def ofSettings (settings : Settings) : Except Error Monitor := do
  let interval ← settings.interval
  if settings.sweeps ≤ 0 then throw (.config "maxConcurrentCleanUps must be > 0")
  return ⟨interval, [], false⟩

/-- What is over its quota: layers in order, and the global quota last. -/
def targets (accountant : Accountant) (ledger : Ledger) : List String :=
  accountant.layersOverQuota ledger ++ if (accountant.globalExcess ledger).isPositive then [globalTarget] else []

/-- Sweeps started for targets that have none, and for which ones. -/
def start (monitor : Monitor) : List String → List String × Monitor
  | [] => ([], monitor)
  | target :: targets =>
    if monitor.inFlight.contains target then monitor.start targets
    else
      let (started, monitor) := { monitor with inFlight := monitor.inFlight ++ [target] }.start targets
      (target :: started, monitor)

/-- The sweep of a target ended. -/
def finish (monitor : Monitor) (target : String) : Monitor :=
  { monitor with inFlight := monitor.inFlight.filter (· != target) }

/-- The monitor shut down. -/
def stop (monitor : Monitor) : Monitor := { monitor with stopped := true }

end Monitor

namespace Enforcer

variable {σ : Type}

/-- One look of a monitor: the targets for which sweeps were started. -/
def look (enforcer : Enforcer σ) (monitor : Cell σ Monitor) : Run σ (List String) := do
  let targets ← enforcer.consult Monitor.targets
  monitor.step (·.start targets)

/-- The quota of a target enforced. -/
def enforceTarget (enforcer : Enforcer σ) (target : String) : Run σ Swept :=
  if target = Monitor.globalTarget then enforcer.enforceGlobal else enforcer.enforce target

/-- A sweep that has been started, up to its end; whatever it comes to, the target is free again. -/
def runSweep (enforcer : Enforcer σ) (monitor : Cell σ Monitor) (target : String) : Run σ Unit := do
  if !(← monitor.get).stopped then Run.ignoringFailure (enforcer.enforceTarget target)
  monitor.change (·.finish target)

/-- Sweeps that have been started, run one after the other. -/
def runSweeps (enforcer : Enforcer σ) (monitor : Cell σ Monitor) (targets : List String) : Run σ Unit :=
  targets.forM (enforcer.runSweep monitor)

/-- A number of looks, the sweeps started by each run before the next; none once the monitor has been shut down. -/
def watch (enforcer : Enforcer σ) (monitor : Cell σ Monitor) : Nat → Run σ Unit
  | 0 => return ()
  | looks + 1 => do
    if (← monitor.get).stopped then return ()
    enforcer.runSweeps monitor (← enforcer.look monitor)
    enforcer.watch monitor looks

end Enforcer

end TileDepot
