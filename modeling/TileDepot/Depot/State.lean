import TileDepot.Clock
import TileDepot.Depot.Plan
import TileDepot.Page.Snapshot

/-!
# The state of a depot

A depot holds the state of everything that a plan puts together: the clock, the atlas and the ledger, the stores by name, the
records, the tiles that wait to be handed over, the accountant and the monitor. Of each step it keeps the ranges that were
truncated and what was written down of events.
-/

namespace TileDepot

/-- The state of a depot. -/
structure Depot where
  clock : Clock
  atlas : Atlas
  /-- The ledger the accountant keeps. -/
  ledger : Ledger
  /-- The ledger that was loaded in its place, if one was: sweeps asked for directly go by it, the accountant does not. -/
  loaded : Option Ledger
  residents : Std.ExtTreeMap String Resident
  caches : Std.ExtTreeMap String TileCache
  gates : Std.ExtTreeMap String Gate
  records : Records
  recordsGate : Gate
  handover : Handover
  /-- The snapshot that was saved last. -/
  saved : Option String
  accountant : Option Accountant
  monitor : Option Monitor
  /-- Whether the sweep of this step has been cancelled. -/
  cancelled : Bool
  /-- The ranges truncated in this step. -/
  truncated : List TileRange
  /-- What was written down of events in this step. -/
  log : List String
deriving Inhabited

namespace Depot

/-! ## Parts -/

/-- The resident store of a name. -/
def residentCell (name : String) : Cell Depot Resident where
  read depot := depot.residents.getD name .empty
  write store depot := { depot with residents := depot.residents.insert name store }

/-- The cache of a name. -/
def cacheCell (name : String) : Cell Depot TileCache where
  read depot := depot.caches.getD name (.empty Settings.defaultCache)
  write cache depot := { depot with caches := depot.caches.insert name cache }

/-- The gate of a name. -/
def gateCell (name : String) : Cell Depot Gate where
  read depot := depot.gates.getD name (.refusing [])
  write gate depot := { depot with gates := depot.gates.insert name gate }

/-- The records. -/
def recordsCell : Cell Depot Records := ⟨Depot.records, fun records depot => { depot with records }⟩

/-- The gate before the records. -/
def recordsGateCell : Cell Depot Gate := ⟨Depot.recordsGate, fun recordsGate depot => { depot with recordsGate }⟩

/-- The ledger that is consulted directly. -/
def currentLedger (depot : Depot) : Ledger := depot.loaded.getD depot.ledger

/-- The books of the accountant. -/
def booksCell : Cell Depot Books where
  read depot := ⟨depot.atlas, depot.ledger⟩
  write books depot := { depot with atlas := books.atlas, ledger := books.ledger }

/-- The books that are consulted directly. -/
def currentBooksCell : Cell Depot Books where
  read depot := ⟨depot.atlas, depot.currentLedger⟩
  write books depot :=
    let depot := { depot with atlas := books.atlas }
    if depot.loaded.isSome then { depot with loaded := some books.ledger } else { depot with ledger := books.ledger }

/-- The accountant. -/
def accountantCell : Cell Depot Accountant where
  read depot := depot.accountant.getD default
  write accountant depot := { depot with accountant := some accountant }

/-- The monitor. -/
def monitorCell : Cell Depot Monitor where
  read depot := depot.monitor.getD default
  write monitor depot := { depot with monitor := some monitor }

/-- Whether the sweep of this step has been cancelled. -/
def cancelledCell : Cell Depot Bool := ⟨Depot.cancelled, fun cancelled depot => { depot with cancelled }⟩

/-- Whether the monitor has been shut down, which cancels its sweeps. -/
def stoppedCell : Cell Depot Bool where
  read depot := (monitorCell.read depot).stopped
  write stopped depot := monitorCell.write { monitorCell.read depot with stopped } depot

/-! ## Events -/

/-- What a listener makes of an event. -/
def hear (listener : Listener) (event : Event) (depot : Depot) : Depot :=
  match listener with
  | .scribe name => { depot with log := depot.log ++ [s!"{name}:{event.text}"] }
  | .accountant =>
    match depot.accountant with
    | none => depot
    | some accountant =>
      let (accountant, books) := accountant.hear event depot.clock.minutes (booksCell.read depot)
      booksCell.write books { depot with accountant := some accountant }

/-! ## Snapshots -/

/-- A snapshot of the ledger saved, unless its place cannot be written. -/
def save (unreachable : Bool) : Run Depot String := do
  if unreachable then throw (.io "no such place")
  let text ← Run.look fun depot => depot.currentLedger.snapshot
  Run.change fun depot => { depot with saved := some text }
  return text

/-- The ledger of a snapshot loaded, the one given or else the one saved last, and how many pages it has. -/
def load (text : Option String) (unreachable : Bool) : Run Depot Nat := do
  match text.or (← Run.look Depot.saved), unreachable with
  | some text, false =>
    let ledger ← Run.result (Ledger.ofSnapshot text)
    Run.change fun depot => { depot with loaded := some ledger }
    return ledger.pageCount
  | _, _ => throw (.io "no such place")

/-! ## Steps -/

/-- The depot at the start of a step, which may have been cancelled beforehand. -/
def nextStep (depot : Depot) (cancelled : Bool) : Depot :=
  { depot with
    cancelled := cancelled
    truncated := []
    log := []
    gates := depot.gates.map fun _ gate => .refusing gate.refused
    recordsGate := .refusing depot.recordsGate.refused }

end Depot

end TileDepot
