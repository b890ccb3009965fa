import TileDepot.Proofs.Run

/-!
# Runs in steps

Where two runs overlap it matters which of their parts are done at once. Steps are a run cut into such parts; taken one right
after the other they are the run again. Two runs overlap where their steps are taken in turns, in whatever order.
-/

namespace TileDepot

variable {σ α β : Type}

/-- A run cut into steps. A step changes the state at once; what follows it depends on the state that it found. -/
inductive Steps (σ α : Type) where
  | done (answer : Except Error α)
  | step (change : σ → σ) (rest : σ → Steps σ α)

namespace Steps

/-- A run as one step. -/
def one (run : Run σ α) : Steps σ α := .step (fun state => (run.onState state).2) fun state => .done (run.onState state).1

/-- Steps and those that follow, unless the first fail. -/
def andThen : Steps σ α → (α → Steps σ β) → Steps σ β
  | done (.ok value), next => next value
  | done (.error error), _ => done (.error error)
  | step change rest, next => step change fun state => (rest state).andThen next

instance : Monad (Steps σ) where
  pure value := .done (.ok value)
  bind := andThen

/-- The run of which these are the steps. -/
def atOnce : Steps σ α → Run σ α
  | done answer => Run.result answer
  | step change rest => Run.ofState fun state => (rest state).atOnce.onState (change state)

/-- Whether there are no more steps. -/
def isDone : Steps σ α → Bool
  | done _ => true
  | step .. => false

/-- One step taken, if there is one: the steps that are left, and the state. -/
def advance : Steps σ α → σ → Steps σ α × σ
  | done answer, state => (done answer, state)
  | step change rest, state => (rest state, change state)

/-- Steps and what comes next, taken at once, are a run and what comes next. -/
theorem atOnce_bind (steps : Steps σ α) (next : α → Steps σ β) :
    (steps >>= next).atOnce = steps.atOnce >>= fun value => (next value).atOnce := by
  have hstate : ∀ (steps : Steps σ α) (state : σ), (steps >>= next).atOnce.onState state =
      (steps.atOnce >>= fun value => (next value).atOnce).onState state := by
    intro steps
    induction steps with
    | done answer => intro state; cases answer <;> rfl
    | step change rest ih =>
      intro state
      have hrest := ih state (change state)
      rw [Run.onState_bind] at hrest ⊢
      exact hrest
  exact funext fun state => hstate steps state

/-- The first of some steps taken. -/
theorem advance_one_bind (run : Run σ α) (next : α → Steps σ β) (state : σ) :
    (one run >>= next).advance state = (done (run.onState state).1 >>= next, (run.onState state).2) := rfl

/-- After steps that are done comes what is next. -/
theorem done_ok_bind (value : α) (next : α → Steps σ β) : (done (.ok value) >>= next) = next value := rfl

/-- Steps that have come to their end stay there. -/
theorem advance_of_isDone {steps : Steps σ α} (h : steps.isDone = true) (state : σ) : steps.advance state = (steps, state) := by
  cases steps with
  | done answer => rfl
  | step => cases h

end Steps

/-! ## Two runs that overlap -/

/-- Whose turn it is. -/
inductive Turn where
  | first
  | second
deriving DecidableEq, Repr

/-- Two runs that are under way on one state. -/
structure Meeting (σ α β : Type) where
  first : Steps σ α
  second : Steps σ β
  state : σ

namespace Meeting

/-- The meeting after one turn. -/
def take (meeting : Meeting σ α β) : Turn → Meeting σ α β
  | .first =>
    let (first, state) := meeting.first.advance meeting.state
    { meeting with first, state }
  | .second =>
    let (second, state) := meeting.second.advance meeting.state
    { meeting with second, state }

/-- The meeting after some turns. -/
def follow (meeting : Meeting σ α β) (turns : List Turn) : Meeting σ α β := turns.foldl take meeting

/-- Whether both runs have come to their end. -/
def isOver (meeting : Meeting σ α β) : Bool := meeting.first.isDone && meeting.second.isDone

/-- A meeting that is over stays as it is. -/
theorem take_of_isOver {meeting : Meeting σ α β} (h : meeting.isOver = true) (turn : Turn) : meeting.take turn = meeting := by
  obtain ⟨hfirst, hsecond⟩ := Bool.and_eq_true_iff.mp h
  cases turn with
  | first => rw [take, Steps.advance_of_isDone hfirst]
  | second => rw [take, Steps.advance_of_isDone hsecond]

/-- When both calls are over turns change nothing. -/
theorem follow_of_isOver {meeting : Meeting σ α β} (h : meeting.isOver = true) (turns : List Turn) :
    meeting.follow turns = meeting := by
  induction turns with
  | nil => rfl
  | cons turn turns ih =>
    rw [follow, List.foldl_cons, take_of_isOver h turn]
    exact ih

/-- Turns are taken one after the other. -/
theorem follow_append (meeting : Meeting σ α β) (turns turns' : List Turn) :
    meeting.follow (turns ++ turns') = (meeting.follow turns).follow turns' :=
  List.foldl_append

end Meeting

end TileDepot
