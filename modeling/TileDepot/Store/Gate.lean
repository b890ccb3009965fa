import TileDepot.Store.Call

/-!
# Gates

A gate stands in front of a store, or of the records of a broker, to rehearse failures and overlapping calls. It notes every
call by its verb, refuses the calls of some verbs without handing them on, and can hold a call before it is handed on and
once it has been answered, so that others come in between.
-/

namespace TileDepot

/-- The verbs a gate refuses and those it has noted, in order. -/
structure Gate where
  refused : List String
  noted : List String
deriving Repr, DecidableEq, Inhabited

/-- A point at which a call can be held. -/
structure HoldPoint where
  /-- The name of the gate, or of the locks, that the call has come to. -/
  place : String
  verb : String
  /-- Whether the call has been answered already. -/
  answered : Bool
deriving Repr, DecidableEq, Inhabited

/-- What happens to the state while a call is held at a point. -/
abbrev Pause (σ : Type) := HoldPoint → σ → σ

namespace Gate

variable {σ α : Type}

/-- A gate that refuses some verbs. -/
def refusing (verbs : List String) : Gate := ⟨verbs, []⟩

/-- A call noted. -/
def note (gate : Gate) (verb : String) : Gate := { gate with noted := gate.noted ++ [verb] }

/-- The error of a refusal. -/
def refusal (name verb : String) : Error := .storage s!"{name} refuses {verb}"

/-- A call that has to pass a gate: it is noted, refused or held, handed on, and held again. -/
def pass (cell : Cell σ Gate) (name verb : String) (pause : Pause σ) (call : Run σ α) : Run σ α := do
  cell.change (·.note verb)
  if (← cell.get).refused.contains verb then throw (refusal name verb)
  Run.change (pause ⟨name, verb, false⟩)
  let answer ← Run.attempt call
  Run.change (pause ⟨name, verb, true⟩)
  Run.result answer

/-- A store behind a gate. Calls about listeners are noted, but neither refused nor held. -/
def before (cell : Cell σ Gate) (name : String) (pause : Pause σ) (store : TileStore σ) : TileStore σ := fun call =>
  if call.isAboutListeners then do
    cell.change (·.note call.verb)
    store call
  else pass cell name call.verb pause (store call)

end Gate

end TileDepot
