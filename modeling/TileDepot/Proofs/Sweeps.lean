import TileDepot.Eviction.Enforcement
import TileDepot.Proofs.Run
import TileDepot.Proofs.Table
import TileDepot.Proofs.TileSet

/-!
# Sweeps

Sweeps and enforcement are loops around one step, the emptying of a page under its lock. What a turn of the loop of a sweep comes
to is said here once. Two sweepers that differ only in how they truncate agree in everything as soon as they agree in emptying
one page of a plain tile set.
-/

namespace TileDepot

open Run (Agree)

variable {σ : Type} {P : σ → Prop}

namespace Sweeper

variable {sweeper sweeper' : Sweeper σ}

/-- Once the lock is held, what becomes of the page becomes of the trial, and the lock is given back. -/
theorem onState_tryPage {set : TileSet} {entry : PageEntry} {state held after : σ} {freed : Except Error Int}
    (hlock : (sweeper.locks.acquire (lockName entry.page.key)).onState state = (.ok (), held))
    (hpage : (sweeper.truncatePage set entry).onState held = (freed, after)) :
    (sweeper.tryPage set entry).onState state =
      (.ok freed.toOption, ((sweeper.locks.release (lockName entry.page.key)).onState after).2) := by
  have hattempt : (Run.attempt (sweeper.locks.acquire (lockName entry.page.key))).onState state = (.ok (.ok ()), held) := by
    rw [Run.onState_attempt, hlock]
  have hattempt' : (Run.attempt (sweeper.truncatePage set entry)).onState held = (.ok freed, after) := by
    rw [Run.onState_attempt, hpage]
  unfold tryPage
  rw [Run.onState_bind_ok hattempt]
  dsimp only
  rw [Run.onState_bind_ok hattempt', Run.onState_bind_ok (Run.onState_ignoringFailure _ _)]
  rfl

/-! ## The loop of a sweep -/

variable {byId : Std.ExtTreeMap String TileSet} {deficit : ByteSize} {entry : PageEntry} {rest : List PageEntry}

variable {tried : Std.ExtTreeMap PageKey Unit} {swept : Swept} {state : σ}

/-- The loop of a sweep that has covered its deficit. -/
theorem onState_sweepFrom_of_covered (hgoes : sweeper.cancelled state = false) (hcovered : deficit.bytes ≤ swept.freed.bytes) :
    (sweeper.sweepFrom byId deficit (entry :: rest) tried swept).onState state = (.ok swept, state) := by
  rw [sweepFrom, Run.onState_bind_ok (Run.onState_look _ _), hgoes]
  exact congrArg (Run.onState · state) (if_pos hcovered)

/-- The loop of a sweep passes over a candidate that has been tried. -/
theorem onState_sweepFrom_of_tried (hgoes : sweeper.cancelled state = false) (hshort : swept.freed.bytes < deficit.bytes)
    (htried : tried.contains entry.page.key = true) :
    (sweeper.sweepFrom byId deficit (entry :: rest) tried swept).onState state =
      (sweeper.sweepFrom byId deficit rest tried swept).onState state := by
  rw [sweepFrom, Run.onState_bind_ok (Run.onState_look _ _), hgoes]
  simp only [Bool.false_eq_true, ↓reduceIte, if_neg (Int.not_le.mpr hshort), htried]

/-- The loop of a sweep passes over a candidate whose tile set it has not been given. -/
theorem onState_sweepFrom_of_unknown (hgoes : sweeper.cancelled state = false) (hshort : swept.freed.bytes < deficit.bytes)
    (huntried : tried.contains entry.page.key = false) (hset : byId[entry.page.key.tileSet]? = none) :
    (sweeper.sweepFrom byId deficit (entry :: rest) tried swept).onState state =
      (sweeper.sweepFrom byId deficit rest (tried.insert entry.page.key ()) swept).onState state := by
  rw [sweepFrom, Run.onState_bind_ok (Run.onState_look _ _), hgoes]
  simp only [Bool.false_eq_true, ↓reduceIte, if_neg (Int.not_le.mpr hshort), huntried, hset]

/-- The loop of a sweep tries its next candidate, unless it is cancelled or has covered its deficit, and goes on after the
trial. -/
theorem onState_sweepFrom_cons {set : TileSet} {after : σ} {freed : Option Int} (hgoes : sweeper.cancelled state = false)
    (hshort : swept.freed.bytes < deficit.bytes) (huntried : tried.contains entry.page.key = false)
    (hset : byId[entry.page.key.tileSet]? = some set) (htry : (sweeper.tryPage set entry).onState state = (.ok freed, after)) :
    (sweeper.sweepFrom byId deficit (entry :: rest) tried swept).onState state =
      (sweeper.sweepFrom byId deficit rest (tried.insert entry.page.key ()) (freed.elim swept swept.addPage)).onState after := by
  rw [sweepFrom, Run.onState_bind_ok (Run.onState_look _ _), hgoes]
  simp only [Bool.false_eq_true, ↓reduceIte, if_neg (Int.not_le.mpr hshort), huntried, hset]
  rw [Run.onState_bind_ok htry]
  cases freed with
  | none => rfl
  | some freed => rfl

/-! ## Sweepers that agree -/

/-- Tile sets by identifier, each a plain one under its own. -/
def PlainSets (sets : Std.ExtTreeMap String TileSet) : Prop :=
  ∀ {id : String} {set : TileSet}, sets[id]? = some set → set.id = id ∧ set.Plain

/-- Two sweepers that differ in how they truncate at most, and agree in emptying one page. -/
structure Alike (P : σ → Prop) (sweeper sweeper' : Sweeper σ) : Prop where
  books : sweeper'.books = sweeper.books
  locks : sweeper'.locks = sweeper.locks
  cancelled : sweeper'.cancelled = sweeper.cancelled
  acquire : ∀ name, Agree P (sweeper.locks.acquire name) (sweeper.locks.acquire name)
  release : ∀ name, Agree P (sweeper.locks.release name) (sweeper.locks.release name)
  candidates : ∀ sets, Agree P (sweeper.books.run (candidates sets)) (sweeper.books.run (candidates sets))
  page : ∀ {set : TileSet} {entry : PageEntry}, set.Plain → entry.page.tileSet = set.id →
    Agree P (sweeper.truncatePage set entry) (sweeper'.truncatePage set entry)

/-- They agree in trying a page. -/
theorem Alike.tryPage (h : Alike P sweeper sweeper') {set : TileSet} {entry : PageEntry} (hset : set.Plain)
    (hpage : entry.page.tileSet = set.id) : Agree P (sweeper.tryPage set entry) (sweeper'.tryPage set entry) := by
  unfold Sweeper.tryPage
  simp only [h.locks]
  refine (h.acquire _).attempt.bind fun acquired => ?_
  cases acquired with
  | error error => exact .pure none
  | ok _ =>
    refine (h.page hset hpage).attempt.bind fun freed => ?_
    exact ((h.release _).ignoringFailure).bind fun _ => .pure _

/-- They agree in the loop of a sweep. -/
theorem Alike.sweepFrom (h : Alike P sweeper sweeper') {sets : Std.ExtTreeMap String TileSet} (hsets : PlainSets sets)
    (deficit : ByteSize) : ∀ (entries : List PageEntry) (tried : Std.ExtTreeMap PageKey Unit) (swept : Swept),
      Agree P (sweeper.sweepFrom sets deficit entries tried swept) (sweeper'.sweepFrom sets deficit entries tried swept) := by
  intro entries
  induction entries with
  | nil => intro tried swept; exact .pure swept
  | cons entry rest ih =>
    intro tried swept
    rw [Sweeper.sweepFrom, Sweeper.sweepFrom, h.cancelled]
    refine (Agree.look _).bind fun cancelled => .ite ((Agree.throw _).bind fun _ => ?_) ?_
    all_goals
      refine .ite (.pure swept) (.ite (ih tried swept) ?_)
      cases hset : sets[entry.page.key.tileSet]? with
      | none => exact ih _ swept
      | some set =>
        obtain ⟨hid, hplain⟩ := hsets hset
        refine (h.tryPage hplain hid.symm).bind fun freed => ?_
        cases freed with
        | none => exact ih _ swept
        | some freed => exact ih _ _

/-- Of the tile sets given, those found by their identifiers are plain. -/
theorem plainSets_ofList {sets : List TileSet} (h : ∀ set ∈ sets, set.Plain) :
    PlainSets (Std.ExtTreeMap.ofList (sets.map fun set => (set.id, set))) := by
  intro id set hset
  obtain ⟨set', hmem, heq⟩ := List.mem_map.mp (Table.mem_of_getElem?_ofList hset)
  obtain ⟨rfl, rfl⟩ := Prod.mk.inj heq
  exact ⟨rfl, h set' hmem⟩

/-- They agree in whole sweeps. -/
theorem Alike.sweep (h : Alike P sweeper sweeper') {sets : List TileSet} (hsets : ∀ set ∈ sets, set.Plain) (policy : Policy)
    (deficit : ByteSize) : Agree P (sweeper.sweep sets policy deficit) (sweeper'.sweep sets policy deficit) := by
  unfold Sweeper.sweep
  rw [h.books]
  exact (h.candidates sets).bind fun entries => h.sweepFrom (plainSets_ofList hsets) deficit _ _ _

end Sweeper

namespace Enforcer

variable {enforcer enforcer' : Enforcer σ}

/-- Two enforcers with the same accountant, and with sweepers that differ in how they truncate at most. -/
structure Alike (P : σ → Prop) (enforcer enforcer' : Enforcer σ) : Prop where
  accountant : enforcer'.accountant = enforcer.accountant
  sweeper : enforcer.sweeper.Alike P enforcer'.sweeper

theorem Alike.consult_eq (h : Alike P enforcer enforcer') {α : Type} (view : Accountant → Ledger → α) :
    enforcer'.consult view = enforcer.consult view := by
  unfold consult
  rw [h.accountant, h.sweeper.books]

/-- Loops of sweeps agree where the tile sets to be swept are always plain. -/
theorem Alike.sweepUntil (h : Alike P enforcer enforcer') (policy : Policy) (excess : Accountant → Ledger → ByteSize)
    {sets : Accountant → Ledger → List TileSet}
    (hsets : ∀ state, P state → ∀ set ∈ sets (enforcer.accountant.read state) (enforcer.sweeper.books.read state).ledger,
      set.Plain) : ∀ (rounds : Nat) (total : Swept),
        Agree P (enforcer.sweepUntil policy excess sets rounds total) (enforcer'.sweepUntil policy excess sets rounds total) := by
  intro rounds
  induction rounds with
  | zero => intro total; exact .pure total
  | succ rounds ih =>
    intro total
    rw [Enforcer.sweepUntil, Enforcer.sweepUntil, h.consult_eq, h.consult_eq]
    refine (Agree.look _).bind fun deficit => .ite (.pure total) ?_
    refine .bind_look fun state hstate => ?_
    refine (h.sweeper.sweep (hsets state hstate) policy deficit).bind fun swept => ?_
    exact .ite (.pure _) (ih _)

theorem Alike.sweepAll (h : Alike P enforcer enforcer') (policy : Policy) (excess : Accountant → Ledger → ByteSize)
    {sets : Accountant → Ledger → List TileSet}
    (hsets : ∀ state, P state → ∀ set ∈ sets (enforcer.accountant.read state) (enforcer.sweeper.books.read state).ledger,
      set.Plain) : Agree P (enforcer.sweepAll policy excess sets) (enforcer'.sweepAll policy excess sets) := by
  unfold Enforcer.sweepAll
  rw [h.consult_eq, h.consult_eq, h.sweeper.books]
  refine (Agree.look _).bind fun deficit => .ite (.pure _) ?_
  refine (Agree.look _).bind fun _ => (h.sweeper.candidates _).bind fun entries => ?_
  exact h.sweepUntil policy excess hsets _ _

theorem Alike.enforce (h : Alike P enforcer enforcer') (layer : String)
    (hsets : ∀ state, P state → ∀ set ∈ (enforcer.sweeper.books.read state).ledger.tileSetsOf layer, set.Plain) :
    Agree P (enforcer.enforce layer) (enforcer'.enforce layer) := by
  unfold Enforcer.enforce
  rw [h.consult_eq, h.consult_eq]
  refine (Agree.look _).bind fun allowed => .ite (.pure _) ?_
  refine (Agree.look _).bind fun policy => (Agree.result _).bind fun policy => ?_
  exact h.sweepAll policy _ hsets

theorem Alike.enforceGlobal (h : Alike P enforcer enforcer')
    (hsets : ∀ state, P state → ∀ set ∈ (enforcer.accountant.read state).globalTileSets
      (enforcer.sweeper.books.read state).ledger, set.Plain) :
    Agree P enforcer.enforceGlobal enforcer'.enforceGlobal := by
  unfold Enforcer.enforceGlobal
  rw [h.consult_eq]
  refine (Agree.look _).bind fun policy => (Agree.result _).bind fun policy => ?_
  exact h.sweepAll policy _ hsets

end Enforcer

end TileDepot
