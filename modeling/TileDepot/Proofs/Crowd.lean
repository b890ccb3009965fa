import Mathlib.Logic.Function.Basic
import TileDepot.Proofs.Interleaving
import TileDepot.Store.Locks

/-!
# Runs that wait for one another

Any number of runs overlap on one state, and some of their steps take a lock or give one back. While somebody holds a lock,
whoever is to take it waits: its turns go by without effect. A schedule in which everybody has a turn again and again brings all
runs to their end if whoever does not wait comes closer to it, and not all that are left wait.
-/

namespace TileDepot

variable {σ α ι : Type}

/-- A run cut into steps, with the locks that it takes and gives back. -/
inductive Script (σ α : Type) where
  | done (answer : Except Error α)
  | step (change : σ → σ) (rest : σ → Script σ α)
  | acquire (key : String) (rest : Script σ α)
  | release (key : String) (rest : Script σ α)

/-- Every lock can be had. -/
def Locks.Reliable (locks : Locks σ) : Prop := ∀ key state, ((locks.acquire key).onState state).1 = .ok ()

namespace Script

/-- Steps, after which a lock is given back, whatever they have come to. -/
def underLock (key : String) : Steps σ α → Script σ α
  | .done answer => .release key (.done answer)
  | .step change rest => .step change fun state => underLock key (rest state)

/-- The run of which this is the script, where every lock can be had. -/
def atOnce (locks : Locks σ) : Script σ α → Run σ α
  | done answer => Run.result answer
  | step change rest => Run.ofState fun state => ((rest state).atOnce locks).onState (change state)
  | acquire key rest => do
    locks.acquire key
    rest.atOnce locks
  | release key rest => do
    Run.ignoringFailure (locks.release key)
    rest.atOnce locks

/-- Steps under a lock, taken at once, end with the release of the lock, whatever they come to. -/
theorem atOnce_underLock (locks : Locks σ) (key : String) (steps : Steps σ α) :
    (underLock key steps).atOnce locks =
      (do
        let answer ← Run.attempt steps.atOnce
        Run.ignoringFailure (locks.release key)
        Run.result answer) := by
  refine funext fun state => ?_
  induction steps generalizing state with
  | done answer => rfl
  | step change rest ih => exact ih state (change state)

end Script

/-- Runs that are under way on one state, and who holds which lock. -/
structure Crowd (ι σ α : Type) where
  scripts : ι → Script σ α
  state : σ
  holder : String → Option ι

namespace Crowd

/-- Runs that are about to begin, while nobody holds a lock. -/
def gathered (scripts : ι → Script σ α) (state : σ) : Crowd ι σ α := ⟨scripts, state, fun _ => none⟩

/-- All runs have come to their end. -/
def IsOver (crowd : Crowd ι σ α) : Prop := ∀ party, ∃ answer, crowd.scripts party = .done answer

/-- A party has come to its end, or waits for a lock that somebody holds. -/
def IsIdle (crowd : Crowd ι σ α) (party : ι) : Prop :=
  match crowd.scripts party with
  | .done _ => True
  | .acquire key _ => crowd.holder key ≠ none
  | .step .. | .release .. => False

/-- When all is over every party is idle. -/
theorem IsOver.isIdle {crowd : Crowd ι σ α} (h : crowd.IsOver) (party : ι) : crowd.IsIdle party := by
  obtain ⟨answer, hanswer⟩ := h party
  simp [IsIdle, hanswer]

variable [DecidableEq ι]

/-- The crowd after a turn of one party. -/
def take (crowd : Crowd ι σ α) (party : ι) : Crowd ι σ α :=
  match crowd.scripts party with
  | .done _ => crowd
  | .step change rest =>
    { crowd with scripts := Function.update crowd.scripts party (rest crowd.state), state := change crowd.state }
  | .acquire key rest =>
    match crowd.holder key with
    | some _ => crowd
    | none =>
      { crowd with
        scripts := Function.update crowd.scripts party rest
        holder := Function.update crowd.holder key (some party) }
  | .release key rest =>
    { crowd with
      scripts := Function.update crowd.scripts party rest
      holder := Function.update crowd.holder key none }

/-- The crowd after some turns. -/
def follow (crowd : Crowd ι σ α) (turns : List ι) : Crowd ι σ α := turns.foldl take crowd

variable {crowd : Crowd ι σ α} {party : ι}

/-- Turns are taken one after the other. -/
theorem follow_append (crowd : Crowd ι σ α) (turns turns' : List ι) :
    crowd.follow (turns ++ turns') = (crowd.follow turns).follow turns' :=
  List.foldl_append

/-- The turn of an idle party goes by without effect. -/
theorem take_of_isIdle (h : crowd.IsIdle party) : crowd.take party = crowd := by
  unfold IsIdle at h
  unfold take
  cases hscript : crowd.scripts party with
  | done answer => rfl
  | step change rest =>
    rw [hscript] at h
    exact h.elim
  | release key rest =>
    rw [hscript] at h
    exact h.elim
  | acquire key rest =>
    rw [hscript] at h
    obtain ⟨holder, hholder⟩ := Option.ne_none_iff_exists'.mp h
    simp only [hholder]

/-- A step under a lock. -/
theorem take_underLock {β : Type} {key : String} {run : Run σ β} {next : β → Steps σ α}
    (h : crowd.scripts party = .underLock key (.one run >>= next)) :
    crowd.take party =
      { crowd with
        scripts := Function.update crowd.scripts party (.underLock key (.done (run.onState crowd.state).1 >>= next))
        state := (run.onState crowd.state).2 } := by
  unfold take
  rw [h]
  rfl

/-- When all is over turns change nothing. -/
theorem follow_of_isOver (h : crowd.IsOver) (turns : List ι) : crowd.follow turns = crowd := by
  induction turns with
  | nil => rfl
  | cons party turns ih =>
    rw [follow, List.foldl_cons, take_of_isIdle (h.isIdle party)]
    exact ih

/-! ## Schedules that bring all runs to their end -/

/-- A property of crowds with the steps that are left at most: who is not idle takes one of them, and not all are idle before
the end. -/
structure Advances (P : Crowd ι σ α → Nat → Prop) : Prop where
  take : ∀ {crowd left party}, P crowd left → ¬crowd.IsIdle party → ∃ left' < left, P (crowd.take party) left'
  ends : ∀ {crowd left}, P crowd left → (∀ party, crowd.IsIdle party) → crowd.IsOver

variable {P : Crowd ι σ α → Nat → Prop} {left : Nat}

/-- In a round somebody comes closer to the end, unless whoever has a turn is idle. -/
theorem Advances.round (hadvances : Advances P) (turns : List ι) (h : P crowd left) :
    (∃ left' < left, P (crowd.follow turns) left') ∨ (∀ party ∈ turns, crowd.IsIdle party) ∧ crowd.follow turns = crowd := by
  induction turns generalizing crowd left with
  | nil => exact Or.inr ⟨fun _ hparty => absurd hparty List.not_mem_nil, rfl⟩
  | cons party turns ih =>
    change (∃ left' < left, P ((crowd.take party).follow turns) left') ∨ _ ∧ (crowd.take party).follow turns = crowd
    by_cases hidle : crowd.IsIdle party
    · rw [take_of_isIdle hidle]
      rcases ih h with hcloser | ⟨hturns, hsame⟩
      · exact Or.inl hcloser
      · exact Or.inr ⟨List.forall_mem_cons.mpr ⟨hidle, hturns⟩, hsame⟩
    · obtain ⟨left', hlt, hnext⟩ := hadvances.take h hidle
      refine Or.inl ?_
      rcases ih hnext with ⟨left'', hlt', hlater⟩ | ⟨-, hsame⟩
      · exact ⟨left'', Nat.lt_trans hlt' hlt, hlater⟩
      · exact ⟨left', hlt, hsame.symm ▸ hnext⟩

/-- As many rounds as there are steps left, in each of which everybody has a turn, bring all runs to their end. -/
theorem Advances.isOver (hadvances : Advances P) (rounds : List (List ι)) (hfair : ∀ round ∈ rounds, ∀ party, party ∈ round)
    (hlong : left ≤ rounds.length) (h : P crowd left) : (crowd.follow rounds.flatten).IsOver := by
  induction rounds generalizing crowd left with
  | nil =>
    refine hadvances.ends h fun party => ?_
    by_contra hmoves
    obtain ⟨left', hlt, -⟩ := hadvances.take h hmoves
    exact Nat.not_lt_zero _ (Nat.lt_of_lt_of_le hlt hlong)
  | cons round rounds ih =>
    rw [List.flatten_cons, follow_append]
    rcases hadvances.round round h with ⟨left', hlt, hnext⟩ | ⟨hidle, hsame⟩
    · refine ih (fun later hlater => hfair later (List.mem_cons_of_mem _ hlater)) ?_ hnext
      rw [List.length_cons] at hlong
      omega
    · have hover := hadvances.ends h fun party => hidle party (hfair round List.mem_cons_self party)
      rw [hsame, follow_of_isOver hover]
      exact hover

end Crowd

end TileDepot
