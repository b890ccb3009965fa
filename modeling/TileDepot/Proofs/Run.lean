import TileDepot.Run

/-!
# What a run does to a state

A run is known by its result and by the state after it. The laws of `onState` say so for every way in which runs are put
together. `Agree` compares two runs from the states that have a property: they come to the same, and the property outlives
them. A run that agrees with itself keeps the property; a loop needs nothing but its step.
-/

namespace TileDepot.Run

variable {σ α β γ : Type}

/-! ## The laws of `onState` -/

@[simp] theorem onState_ofState (step : σ → Except Error α × σ) (state : σ) : (ofState step).onState state = step state := rfl

@[simp] theorem onState_pure (value : α) (state : σ) : (pure value : Run σ α).onState state = (.ok value, state) := rfl

@[simp] theorem onState_throw (error : Error) (state : σ) : (throw error : Run σ α).onState state = (.error error, state) := rfl

@[simp] theorem onState_step (change : σ → α × σ) (state : σ) :
    (step change).onState state = (.ok (change state).1, (change state).2) := rfl

@[simp] theorem onState_change (change : σ → σ) (state : σ) : (Run.change change).onState state = (.ok (), change state) := rfl

@[simp] theorem onState_look (view : σ → α) (state : σ) : (look view).onState state = (.ok (view state), state) := rfl

@[simp] theorem onState_result (value : Except Error α) (state : σ) : (result value).onState state = (value, state) := rfl

@[simp] theorem onState_attempt (run : Run σ α) (state : σ) :
    (attempt run).onState state = (.ok (run.onState state).1, (run.onState state).2) := rfl

@[simp] theorem onState_cell (cell : Cell σ β) (run : Run β α) (state : σ) :
    (cell.run run).onState state = ((run.onState (cell.read state)).1, cell.write (run.onState (cell.read state)).2 state) :=
  rfl

@[simp] theorem onState_cell_get (cell : Cell σ β) (state : σ) : cell.get.onState state = (.ok (cell.read state), state) := rfl

/-- The first run comes first; what follows goes on from its state, unless it failed. -/
theorem onState_bind (run : Run σ α) (next : α → Run σ β) (state : σ) :
    (run >>= next).onState state = match run.onState state with
      | (.ok value, state) => (next value).onState state
      | (.error error, state) => (.error error, state) := by
  unfold onState ExceptT.run StateT.run
  simp only [bind, ExceptT.bind, ExceptT.mk, StateT.bind, ExceptT.bindCont]
  rcases run state with ⟨error | value, after⟩ <;> rfl

/-- A run that does not fail has its result. -/
theorem onState_of_isOk [Inhabited α] {run : Run σ α} {state : σ} (h : (run.onState state).1.isOk = true) :
    run.onState state = (.ok ((run.onState state).1.toOption.getD default), (run.onState state).2) := by
  rcases hrun : run.onState state with ⟨error | value, after⟩
  · rw [hrun] at h
    cases h
  · rfl

/-- After a run that gives a value comes what is next. -/
theorem onState_bind_ok {run : Run σ α} {next : α → Run σ β} {state after : σ} {value : α}
    (h : run.onState state = (.ok value, after)) : (run >>= next).onState state = (next value).onState after := by
  rw [onState_bind, h]

/-- After a run that fails nothing comes. -/
theorem onState_bind_error {run : Run σ α} {next : α → Run σ β} {state after : σ} {error : Error}
    (h : run.onState state = (.error error, after)) : (run >>= next).onState state = (.error error, after) := by
  rw [onState_bind, h]

/-- A run whose failure is ignored changes the state as it does. -/
theorem onState_ignoringFailure (run : Run σ α) (state : σ) :
    (ignoringFailure run).onState state = (.ok (), (run.onState state).2) :=
  onState_bind_ok (onState_attempt run state)

/-- Where the first run comes to the same from two states, so does what follows. -/
theorem onState_bind_congr {run : Run σ α} {next : α → Run σ β} {state state' : σ} (h : run.onState state = run.onState state') :
    (run >>= next).onState state = (run >>= next).onState state' := by
  rw [onState_bind, onState_bind, h]

/-! ## Runs that agree -/

/-- Two runs that come to the same from every state with a property, and end in a state with it. -/
def Agree (P : σ → Prop) (run run' : Run σ α) : Prop :=
  ∀ state, P state → run'.onState state = run.onState state ∧ P (run.onState state).2

variable {P : σ → Prop}

/-- A value agrees with itself. -/
theorem Agree.pure (value : α) : Agree P (Pure.pure value : Run σ α) (Pure.pure value) :=
  fun _ h => ⟨rfl, h⟩

/-- A failure agrees with itself. -/
theorem Agree.throw (error : Error) : Agree P (MonadExcept.throw error : Run σ α) (MonadExcept.throw error) :=
  fun _ h => ⟨rfl, h⟩

/-- An outcome agrees with itself. -/
theorem Agree.result (value : Except Error α) : Agree P (Run.result value : Run σ α) (Run.result value) :=
  fun _ h => ⟨rfl, h⟩

/-- A look at the state agrees with itself. -/
theorem Agree.look (view : σ → α) : Agree P (Run.look view) (Run.look view) :=
  fun _ h => ⟨rfl, h⟩

/-- Runs that agree still do with what comes next, if that agrees. -/
theorem Agree.bind {run run' : Run σ α} {next next' : α → Run σ β} (h : Agree P run run')
    (hnext : ∀ value, Agree P (next value) (next' value)) : Agree P (run >>= next) (run' >>= next') := by
  intro state hstate
  obtain ⟨heq, hafter⟩ := h state hstate
  rw [onState_bind, onState_bind, heq]
  rcases hrun : run.onState state with ⟨⟨error⟩ | ⟨value⟩, after⟩
  · rw [hrun] at hafter
    exact ⟨rfl, hafter⟩
  · rw [hrun] at hafter
    exact hnext value after hafter

/-- What follows a look may count on what the look has seen. -/
theorem Agree.bind_look {view : σ → α} {next next' : α → Run σ β}
    (h : ∀ state, P state → Agree P (next (view state)) (next' (view state))) :
    Agree P (Run.look view >>= next) (Run.look view >>= next') := by
  intro state hstate
  rw [onState_bind_ok (onState_look view state), onState_bind_ok (onState_look view state)]
  exact h state hstate state hstate

/-- Attempts at runs that agree agree. -/
theorem Agree.attempt {run run' : Run σ α} (h : Agree P run run') : Agree P (Run.attempt run) (Run.attempt run') := by
  intro state hstate
  obtain ⟨heq, hafter⟩ := h state hstate
  rw [onState_attempt, onState_attempt, heq]
  exact ⟨rfl, hafter⟩

/-- Runs that agree still do when their failures are ignored. -/
theorem Agree.ignoringFailure {run run' : Run σ α} (h : Agree P run run') :
    Agree P (Run.ignoringFailure run) (Run.ignoringFailure run') :=
  h.attempt.bind fun _ => .pure ()

/-- Runs that agree in either case agree. -/
theorem Agree.ite {condition : Prop} [Decidable condition] {run run' other other' : Run σ α} (h : Agree P run run')
    (hother : Agree P other other') :
    Agree P (if condition then run else other) (if condition then run' else other') := by
  split
  · exact h
  · exact hother

end TileDepot.Run
