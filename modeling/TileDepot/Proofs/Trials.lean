import TileDepot.Proofs.Depot.Swept
import TileDepot.Proofs.Estimates
import TileDepot.Proofs.Shelved

/-!
# What a sweep tries

A sweep tries its candidates one after the other. A trial takes the lock of a page, asks for its measures, has its tiles deleted,
records it as empty and gives the lock back; it may end before, and then the page is passed over. The course of a sweep is a
run of such trials, whatever the locks and the deletions do to the state, and whatever cancels it. What is freed is estimated
from the measures of the page and the usage of its tile set when it is emptied, and the estimates are added up in a word.
-/

namespace TileDepot

namespace Sweeper

/-! ## Trials -/

/-- A page that was tried, the ranges whose tiles were to be deleted, and, if it was emptied, the tiles of a full page and the
usage of its tile set by which the estimate was made. -/
structure Trial where
  entry : PageEntry
  emptied : Option (Nat × Usage)
  ranges : List TileRange

namespace Trial

/-- The estimate of what was freed by a trial, if its page was emptied. -/
def freed (trial : Trial) : Option Int :=
  trial.emptied.map fun (slots, usage) => estimate trial.entry.stats slots usage.averageSize

/-- The estimate of what was freed by some trials. -/
def freedBy (trials : List Trial) : Int := (trials.filterMap freed).sum

/-- What some trials have done: the pages that were emptied, and the estimate of what was freed as a word holds it. -/
def swept (trials : List Trial) : Swept := ⟨(trials.filterMap freed).length, .ofBytes (Word.wrap 128 (freedBy trials))⟩

/-- An estimate is what goes with the page, but for one part in `2 ^ 49` and the rest of a byte. -/
def Estimated (trial : Trial) : Prop :=
  ∀ (slots : Nat) (usage : Usage), trial.emptied = some (slots, usage) → Countable trial.entry.stats slots usage →
    ∃ freed, trial.freed = some freed ∧
      min (exactEstimate trial.entry.stats slots usage * (1 - 2 ^ (-49 : ℤ))) Binary64.maxInt128 ≤ freed ∧
      freed < exactEstimate trial.entry.stats slots usage * (1 + 2 ^ (-49 : ℤ)) + 1

/-- Every estimate is such. -/
theorem estimated (trial : Trial) : trial.Estimated := by
  intro slots usage hemptied hcount
  refine ⟨_, ?_, estimate_near hcount⟩
  rw [freed, hemptied]
  rfl

end Trial

variable {σ : Type}

/-! ## One trial -/

/-- The rectangle of a page, and how many tiles a full page at its zoom has. -/
def measures (set : TileSet) (page : Page) : Run Atlas (Coverage × Nat) := do
  let area ← Atlas.areaOf set page
  let slots ← Atlas.tilesPerPage set page.zoom
  return (area, slots)

/-- The state with pyramids drawn in the books, and nothing else changed. -/
def charted (sweeper : Sweeper σ) (atlas : Atlas) (state : σ) : σ :=
  sweeper.books.write { sweeper.books.read state with atlas } state

/-- The state with a page recorded as empty, and nothing else changed. -/
def marked (sweeper : Sweeper σ) (set : TileSet) (page : Page) (state : σ) : σ :=
  sweeper.books.write { sweeper.books.read state with
    ledger := (sweeper.books.read state).ledger.setTruncated set page (sweeper.now state) } state

/-- The state after the lock of a page was given back, whether that was reported as failed or not. -/
def released (sweeper : Sweeper σ) (page : Page) (state : σ) : σ :=
  ((sweeper.locks.release (lockName page.key)).onState state).2

/-- What becomes of a state when a page is tried, by what the estimate is made if it was emptied, and the ranges whose tiles
were to be deleted. Only where the deletion succeeds does the sweep itself write to the ledger. -/
inductive Tries (sweeper : Sweeper σ) (set : TileSet) (entry : PageEntry) (state : σ) :
    Option (Nat × Usage) → List TileRange → σ → Prop where
  /-- The lock cannot be taken. -/
  | locked {error : Error} {after : σ}
      (hlock : (sweeper.locks.acquire (lockName entry.page.key)).onState state = (.error error, after)) :
      Tries sweeper set entry state none [] after
  /-- There is no such page in the pyramid. -/
  | unmeasured {held : σ} {error : Error} {atlas : Atlas}
      (hlock : (sweeper.locks.acquire (lockName entry.page.key)).onState state = (.ok (), held))
      (hmeasures : (measures set entry.page).onState (sweeper.books.read held).atlas = (.error error, atlas)) :
      Tries sweeper set entry state none [] (sweeper.released entry.page (sweeper.charted atlas held))
  /-- The tiles cannot be deleted. -/
  | refused {held refusing : σ} {area : Coverage} {slots : Nat} {atlas : Atlas} {error : Error}
      (hlock : (sweeper.locks.acquire (lockName entry.page.key)).onState state = (.ok (), held))
      (hmeasures : (measures set entry.page).onState (sweeper.books.read held).atlas = (.ok (area, slots), atlas))
      (hdelete : (sweeper.truncate (.ofPage set area)).onState (sweeper.charted atlas held) = (.error error, refusing)) :
      Tries sweeper set entry state none [.ofPage set area] (sweeper.released entry.page refusing)
  /-- The tiles are deleted, and the page is recorded as empty. -/
  | emptied {held deleted : σ} {area : Coverage} {slots : Nat} {atlas : Atlas} {found : Bool}
      (hlock : (sweeper.locks.acquire (lockName entry.page.key)).onState state = (.ok (), held))
      (hmeasures : (measures set entry.page).onState (sweeper.books.read held).atlas = (.ok (area, slots), atlas))
      (hdelete : (sweeper.truncate (.ofPage set area)).onState (sweeper.charted atlas held) = (.ok found, deleted)) :
      Tries sweeper set entry state (some (slots, (sweeper.books.read held).ledger.usageOf set.id)) [.ofPage set area]
        (sweeper.released entry.page (sweeper.marked set entry.page deleted))

/-- A page tried, and the state after it. -/
def trial (sweeper : Sweeper σ) (set : TileSet) (entry : PageEntry) (state : σ) : Trial × σ :=
  match (sweeper.locks.acquire (lockName entry.page.key)).onState state with
  | (.error _, after) => (⟨entry, none, []⟩, after)
  | (.ok _, held) =>
    match (measures set entry.page).onState (sweeper.books.read held).atlas with
    | (.error _, atlas) => (⟨entry, none, []⟩, sweeper.released entry.page (sweeper.charted atlas held))
    | (.ok (area, slots), atlas) =>
      match (sweeper.truncate (.ofPage set area)).onState (sweeper.charted atlas held) with
      | (.error _, refusing) => (⟨entry, none, [.ofPage set area]⟩, sweeper.released entry.page refusing)
      | (.ok _, deleted) =>
        (⟨entry, some (slots, (sweeper.books.read held).ledger.usageOf set.id), [.ofPage set area]⟩,
          sweeper.released entry.page (sweeper.marked set entry.page deleted))

variable {sweeper : Sweeper σ} {set : TileSet} {entry : PageEntry}

variable {emptied : Option (Nat × Usage)} {ranges : List TileRange} {state after : σ}

/-- A run on the atlas changes nothing but which pyramids have been drawn. -/
theorem onState_drawing {α : Type} (run : Run Atlas α) (state : σ) :
    (sweeper.books.run (Books.atlasCell.run run)).onState state =
      ((run.onState (sweeper.books.read state).atlas).1, sweeper.charted (run.onState (sweeper.books.read state).atlas).2 state) :=
  rfl

/-- A run of trials, each of which begins where the one before has ended, and only while nothing has cancelled the sweep and what
was freed falls short of the deficit. -/
inductive Course (sweeper : Sweeper σ) (sets : List TileSet) (deficit : ByteSize) (start : σ) : List Trial → σ → Prop where
  | start : Course sweeper sets deficit start [] start
  | next {trials : List Trial} {trial : Trial} {set : TileSet} {state after : σ}
      (h : Course sweeper sets deficit start trials state) (hgoes : sweeper.cancelled state = false)
      (hshort : Word.wrap 128 (Trial.freedBy trials) < deficit.bytes) (hset : set ∈ sets)
      (hid : trial.entry.page.key.tileSet = set.id)
      (htries : sweeper.Tries set trial.entry state trial.emptied trial.ranges after) :
      Course sweeper sets deficit start (trials ++ [trial]) after

/-- A part of the state that keeps the ranges whose tiles were to be deleted, and knows of nothing else. -/
structure Logs (sweeper : Sweeper σ) (log : σ → List TileRange) : Prop where
  write : ∀ books state, log (sweeper.books.write books state) = log state
  acquire : ∀ name state, log ((sweeper.locks.acquire name).onState state).2 = log state
  release : ∀ name state, log ((sweeper.locks.release name).onState state).2 = log state
  truncate : ∀ range state, log ((sweeper.truncate range).onState state).2 = log state ++ [range]

variable {sets : List TileSet} {deficit : ByteSize} {start : σ}

/-- The tile sets of a sweep by identifier; of two with one identifier the last counts. -/
def byId (sets : List TileSet) : Std.ExtTreeMap String TileSet := .ofList (sets.map fun set => (set.id, set))

/-- Pages tried one after the other, whatever was freed by then, and the state after them. -/
def trace (sweeper : Sweeper σ) (sets : List TileSet) (entries : List PageEntry) (start : σ) : List Trial × σ :=
  entries.foldl (fun (trials, state) entry => match (byId sets)[entry.page.key.tileSet]? with
    | none => (trials, state)
    | some set => (trials ++ [(sweeper.trial set entry state).1], (sweeper.trial set entry state).2)) ([], start)

/-- A tile set is found by its own identifier. -/
theorem getElem?_byId (hids : (sets.map TileSet.id).Nodup) (hset : set ∈ sets) : (byId sets)[set.id]? = some set := by
  refine Std.ExtTreeMap.getElem?_ofList_of_mem Std.ReflCmp.compare_self ?_ (List.mem_map.mpr ⟨set, hset, rfl⟩)
  exact List.pairwise_map.mpr ((List.pairwise_map.mp hids).imp fun h heq => h (Std.LawfulEqOrd.eq_of_compare heq))

/-- What comes before a trial of a course is a course, after which nothing had cancelled the sweep and what was freed fell short of
the deficit. -/
theorem Course.before {trials : List Trial} {after : σ} (h : sweeper.Course sets deficit start trials after)
    {before later : List Trial} {trial : Trial} (hsplit : trials = before ++ trial :: later) :
    ∃ state, sweeper.Course sets deficit start before state ∧ sweeper.cancelled state = false ∧
      Word.wrap 128 (Trial.freedBy before) < deficit.bytes := by
  induction h generalizing later with
  | start => exact absurd hsplit.symm (List.append_ne_nil_of_right_ne_nil _ (List.cons_ne_nil _ _))
  | @next trials last set state after h hgoes hshort hset hid htries ih =>
    rcases List.eq_nil_or_concat later with rfl | ⟨init, final, rfl⟩
    · -- it is the last trial
      obtain ⟨rfl, -⟩ := List.append_inj' hsplit rfl
      exact ⟨state, h, hgoes, hshort⟩
    · rw [List.concat_eq_append, ← List.cons_append, ← List.append_assoc] at hsplit
      obtain ⟨hinit, -⟩ := List.append_inj' hsplit rfl
      exact ih hinit

/-- What a sweep comes to that has candidates in an order: it tries them in that order, each of them once, until the deficit is
covered, until it is cancelled, or to the end. It fails only where it is cancelled with a candidate to go. -/
structure Ends (sweeper : Sweeper σ) (sets : List TileSet) (deficit : ByteSize) (candidates : List PageEntry) (start : σ)
    (trials : List Trial) (outcome : Except Error Swept) (after : σ) : Prop where
  course : sweeper.Course sets deficit start trials after
  tried : trials.map Trial.entry <+: candidates
  complete : trials.map Trial.entry = candidates ∨ deficit.bytes ≤ Word.wrap 128 (Trial.freedBy trials) ∨
    sweeper.cancelled after = true
  finished : trials.map Trial.entry = candidates ∨ sweeper.cancelled after = false → outcome = .ok (Trial.swept trials)
  cancelled : trials.map Trial.entry ≠ candidates → sweeper.cancelled after = true →
    outcome = .error (.cancelled s!"sweep interrupted after {(Trial.swept trials).pages} pages")

/-- What a sweep over some tile sets comes to that has found candidates: it sorts them, and tries them in this order, each of them
only while nothing has cancelled the sweep and the estimates of what was freed by then, added up in a word, fall short of the
deficit. -/
structure Sweeps (sweeper : Sweeper σ) (sets : List TileSet) (policy : Policy) (deficit : ByteSize) (entries : List PageEntry)
    (start : σ) (trials : List Trial) (outcome : Except Error Swept) (after : σ) : Prop where
  candidates : (policy.sort entries).Perm entries
  sorted : (policy.sort entries).Pairwise fun a b => policy.order a b = .lt
  ends : sweeper.Ends sets deficit (policy.sort entries) start trials outcome after
  traced : sweeper.trace sets (trials.map Trial.entry) start = (trials, after)
  goes : ∀ (before later : List Trial) (trial : Trial), trials = before ++ trial :: later →
    sweeper.cancelled (sweeper.trace sets (before.map Trial.entry) start).2 = false ∧
      Word.wrap 128 (Trial.freedBy before) < deficit.bytes
  estimated : ∀ trial ∈ trials, trial.Estimated
  once : (trials.map (·.entry.page.key)).Nodup
  ranges : ∀ trial ∈ trials, trial.ranges.length ≤ 1
  logged : ∀ log, sweeper.Logs log → log after = log start ++ trials.flatMap Trial.ranges

end Sweeper

/-! ## Sweeps of a depot -/

namespace Depot

end Depot

namespace Sample

/-- A page of the lanes, one tile wide. -/
def lanePage (column : Nat) : Page := .ofIndex lanes.id ⟨column, 0, 3⟩ 0

/-- Conditions in which one lock cannot be taken, the first truncation fails, and the third one is the last. -/
def troubled : Conditions := ⟨false, some 3, [1], ⟨"locks", [Sweeper.lockName (lanePage 1).key], []⟩⟩

/-- The sweeper of a depot under some conditions. -/
def sweeper (conditions : Conditions) : Sweeper Depot :=
  (DepotPlan.single "tiles" conditions).sweeper Depot.currentBooksCell Depot.cancelledCell

end Sample

namespace Sweeper

end Sweeper

end TileDepot
