import TileDepot.Error

/-!
# Runs

A run works on a state and may fail. What it changed before it failed stays changed: nothing is rolled back unless a run
does so itself. A cell is a part of a larger state; a run on the part is a run on the whole.
-/

namespace TileDepot

/-- A computation on a state, with a result or an error. -/
abbrev Run (σ : Type) := ExceptT Error (StateM σ)

/-- A part of a state that can be read and replaced. -/
structure Cell (σ α : Type) where
  read : σ → α
  write : α → σ → σ

namespace Run

variable {σ α : Type}

/-- The result of a run and the state after it. -/
def onState (run : Run σ α) (state : σ) : Except Error α × σ := (ExceptT.run run).run state

/-- A run given by what it makes of every state. -/
def ofState (step : σ → Except Error α × σ) : Run σ α := ExceptT.mk step

/-- The run that changes the state and cannot fail. -/
def step (change : σ → α × σ) : Run σ α := ofState fun state =>
  let (value, state) := change state
  (.ok value, state)

/-- The run that only changes the state. -/
def change (change : σ → σ) : Run σ Unit := step fun state => ((), change state)

/-- The run that only looks at the state. -/
def look (view : σ → α) : Run σ α := step fun state => (view state, state)

/-- The run that has the result given. -/
def result (value : Except Error α) : Run σ α := ofState fun state => (value, state)

/-- A run whose failure is handed over as a value. -/
def attempt (run : Run σ α) : Run σ (Except Error α) := step run.onState

/-- A run whose failure goes unnoticed. -/
def ignoringFailure (run : Run σ α) : Run σ Unit := do let _ ← attempt run

end Run

namespace Cell

variable {σ α β γ : Type}

/-- The whole of a state. -/
def whole : Cell σ σ := ⟨id, fun state _ => state⟩

/-- A part of a part. -/
def inside (inner : Cell α β) (outer : Cell σ α) : Cell σ β where
  read state := inner.read (outer.read state)
  write part state := outer.write (inner.write part (outer.read state)) state

/-- The first of two states. -/
def first : Cell (α × β) α := ⟨Prod.fst, fun part state => (part, state.2)⟩

/-- The second of two states. -/
def second : Cell (α × β) β := ⟨Prod.snd, fun part state => (state.1, part)⟩

/-- A run on the part as a run on the whole. -/
def run (cell : Cell σ α) (run : Run α γ) : Run σ γ := Run.ofState fun state =>
  let (value, part) := run.onState (cell.read state)
  (value, cell.write part state)

/-- The run that changes the part and cannot fail. -/
def step (cell : Cell σ α) (change : α → γ × α) : Run σ γ := cell.run (Run.step change)

/-- The run that only changes the part. -/
def change (cell : Cell σ α) (change : α → α) : Run σ Unit := cell.run (Run.change change)

/-- The run that reads the part. -/
def get (cell : Cell σ α) : Run σ α := Run.look cell.read

end Cell

end TileDepot
