import TileDepot.Eviction.Monitor

/-!
# The sweeps of a monitor side by side

The sweeps that a monitor starts are tasks, and the tasks share three things: the targets in flight, the permits to enforce a
quota, and the word that the monitor was shut down. A task sees or changes one of them at a time; in between other tasks go on,
the monitor looks again, or it is shut down.

Where a task is says what it has: a permit from the moment it gets one until it gives it back, and its target from its start
until its end. So permits and targets are counted by counting tasks.
-/

namespace TileDepot

/-! ## Permits -/

/-- What tasks do with a semaphore, and what they may rely on. A task that asks for a permit and gets none waits for one, until
it gets one when it asks again, or gives up its wait. -/
structure Semaphore (π : Type) where
  /-- All permits are there, and nobody waits. -/
  opened : Nat → π
  /-- A task asks for a permit: whether it gets one. -/
  ask : Nat → π → Bool × π
  /-- A permit is given back. -/
  giveBack : π → π
  /-- A task gives up its wait. -/
  withdraw : Nat → π → π
  /-- How many permits nobody has got. -/
  spare : π → Nat
  /-- Which tasks wait. -/
  waits : π → Nat → Prop
  spare_opened : ∀ count, spare (opened count) = count
  spare_got : ∀ {task permits}, (ask task permits).1 = true → spare (ask task permits).2 + 1 = spare permits
  spare_not_got : ∀ {task permits}, (ask task permits).1 = false → spare (ask task permits).2 = spare permits
  spare_giveBack : ∀ permits, spare (giveBack permits) = spare permits + 1
  spare_withdraw : ∀ task permits, spare (withdraw task permits) = spare permits
  not_waits_opened : ∀ {count task}, ¬waits (opened count) task
  not_waits_got : ∀ {task permits}, (ask task permits).1 = true → ¬waits (ask task permits).2 task
  waits_ask : ∀ {task other permits}, other ≠ task → waits (ask task permits).2 other → waits permits other
  waits_giveBack : ∀ {task permits}, waits (giveBack permits) task → waits permits task
  waits_withdraw : ∀ {task other permits}, waits (withdraw task permits) other → waits permits other ∧ other ≠ task
  /-- Where nobody waits, who asks gets one of the permits that are spare. -/
  got_of_spare : ∀ {task permits}, (∀ other, ¬waits permits other) → 0 < spare permits → (ask task permits).1 = true

/-- The permits that nobody has got, and the tasks that wait for one in the order in which they came. -/
structure WaitingLine where
  spare : Nat
  tasks : List Nat

namespace WaitingLine

/-- The line when a task has its place in it. -/
def joined (line : WaitingLine) (task : Nat) : List Nat := if task ∈ line.tasks then line.tasks else line.tasks ++ [task]

/-- The line without a task. -/
def left (line : WaitingLine) (task : Nat) : List Nat := line.tasks.filter (· ≠ task)

theorem not_mem_left (line : WaitingLine) (task : Nat) : task ∉ line.left task := by
  simp [left]

/-- Whoever is left in line stood in it before. -/
theorem mem_of_mem_left {line : WaitingLine} {task other : Nat} (h : other ∈ line.left task) :
    other ∈ line.tasks ∧ other ≠ task := by
  simpa [left] using h

/-- Whoever stands in line besides the one that joined stood in it before. -/
theorem mem_of_mem_joined {line : WaitingLine} {task other : Nat} (hne : other ≠ task) (h : other ∈ line.joined task) :
    other ∈ line.tasks := by
  unfold joined at h
  split at h
  · exact h
  · simpa [hne] using h

end WaitingLine

/-- Permits are given out in the order in which they were asked for: as many of the tasks first in line as there are permits may
take one. -/
def Semaphore.fair : Semaphore WaitingLine where
  opened count := ⟨count, []⟩
  ask task line :=
    if (line.joined task).idxOf task < line.spare then (true, ⟨line.spare - 1, line.left task⟩)
    else (false, ⟨line.spare, line.joined task⟩)
  giveBack line := { line with spare := line.spare + 1 }
  withdraw task line := { line with tasks := line.left task }
  spare line := line.spare
  waits line task := task ∈ line.tasks
  spare_opened _ := rfl
  spare_got {task line} h := by
    split at h
    · rename_i hfirst
      rw [if_pos hfirst]
      exact Nat.sub_add_cancel (Nat.zero_lt_of_lt hfirst)
    · cases h
  spare_not_got {task line} h := by
    split at h
    · cases h
    · rename_i hlater
      rw [if_neg hlater]
  spare_giveBack _ := rfl
  spare_withdraw _ _ := rfl
  not_waits_opened h := by cases h
  not_waits_got {task line} h := by
    split at h
    · rename_i hfirst
      rw [if_pos hfirst]
      exact line.not_mem_left task
    · cases h
  waits_ask {task other line} hne h := by
    split at h
    · exact (WaitingLine.mem_of_mem_left h).1
    · exact WaitingLine.mem_of_mem_joined hne h
  waits_giveBack h := h
  waits_withdraw h := WaitingLine.mem_of_mem_left h
  got_of_spare {task line} hnobody hspare := by
    have hempty : line.tasks = [] := List.eq_nil_iff_forall_not_mem.mpr hnobody
    have hfirst : (line.joined task).idxOf task < line.spare := by
      simpa [WaitingLine.joined, hempty] using hspare
    rw [if_pos hfirst]

/-! ## Tasks -/

/-- How far the task of a sweep has come. -/
inductive SweepStage where
  /-- It waits for a permit. -/
  | waiting
  /-- It has seen that the monitor runs, and is to ask for a permit. -/
  | asking
  /-- It has seen that the monitor was shut down, and is to give up its wait. -/
  | quitting
  /-- It has a permit and enforces the quota of its target. -/
  | enforcing
  /-- It has enforced the quota, and is to give its permit back. -/
  | settling
  /-- It has no permit, and is to free its target. -/
  | leaving
  | ended
deriving DecidableEq, Repr

namespace SweepStage

/-- Whether a task has a permit. -/
def holds : SweepStage → Bool
  | enforcing | settling => true
  | _ => false

/-- Whether a task has not got a permit yet, nor given up its wait. -/
def waits : SweepStage → Bool
  | waiting | asking | quitting => true
  | _ => false

/-- Whether a task has not ended. -/
def isOpen (stage : SweepStage) : Bool := stage != ended

/-- Whether a task neither has a permit nor is to ask for one without a look at the monitor. -/
def isBarred : SweepStage → Bool
  | waiting | quitting | leaving | ended => true
  | _ => false

variable {π : Type}

/-- What a task does next, and the permits then. -/
def next (semaphore : Semaphore π) (stopped : Bool) (task : Nat) (permits : π) : SweepStage → SweepStage × π
  | waiting => (if stopped then quitting else asking, permits)
  | asking =>
    let (got, permits) := semaphore.ask task permits
    (if got then enforcing else waiting, permits)
  | quitting => (leaving, semaphore.withdraw task permits)
  | enforcing => (settling, permits)
  | settling => (leaving, semaphore.giveBack permits)
  | leaving | ended => (ended, permits)

end SweepStage

/-- The task of a sweep. -/
structure SweepTask where
  target : String
  stage : SweepStage
deriving DecidableEq, Repr

/-- A monitor at work: the permits, and the tasks that it has started. -/
structure Watch (π : Type) where
  monitor : Monitor
  permits : π
  tasks : List SweepTask

/-- What may happen next: the monitor looks and finds some targets over their quota, a task goes on, or the monitor is shut
down. -/
inductive WatchMove where
  | look (targets : List String)
  | proceed (task : Nat)
  | stop

namespace Watch

variable {π : Type}

/-- A monitor that has not looked yet. -/
def opened (semaphore : Semaphore π) (monitor : Monitor) (limit : Nat) : Watch π := ⟨monitor, semaphore.opened limit, []⟩

/-- The monitor looks: a task is started for each target over its quota that has none. -/
def look (watch : Watch π) (targets : List String) : Watch π :=
  let (started, monitor) := watch.monitor.start targets
  { watch with monitor, tasks := watch.tasks ++ started.map (⟨·, .waiting⟩) }

/-- A task started for a target that has none. -/
def start (watch : Watch π) (target : String) : Watch π :=
  { watch with
    monitor := { watch.monitor with inFlight := watch.monitor.inFlight ++ [target] }
    tasks := watch.tasks ++ [⟨target, .waiting⟩] }

/-- A task goes on, if there is one. -/
def proceed (semaphore : Semaphore π) (watch : Watch π) (id : Nat) : Watch π :=
  match watch.tasks[id]? with
  | none => watch
  | some task =>
    let (stage, permits) := task.stage.next semaphore watch.monitor.stopped id watch.permits
    ⟨if task.stage = .leaving then watch.monitor.finish task.target else watch.monitor, permits,
      watch.tasks.set id { task with stage }⟩

/-- The monitor and its tasks after a move. -/
def take (semaphore : Semaphore π) (watch : Watch π) : WatchMove → Watch π
  | .look targets => watch.look targets
  | .proceed id => watch.proceed semaphore id
  | .stop => { watch with monitor := watch.monitor.stop }

/-- The monitor and its tasks after some moves. -/
def follow (semaphore : Semaphore π) (watch : Watch π) (moves : List WatchMove) : Watch π := moves.foldl (take semaphore) watch

/-- The number of tasks that enforce a quota. -/
def enforcing (watch : Watch π) : Nat := watch.tasks.countP (·.stage == .enforcing)

/-- The number of tasks that have a permit. -/
def holding (watch : Watch π) : Nat := watch.tasks.countP (·.stage.holds)

/-- A task that has not ended is there to sweep a target. -/
def Sweeps (watch : Watch π) (id : Nat) (target : String) : Prop :=
  ∃ task, watch.tasks[id]? = some task ∧ task.stage.isOpen = true ∧ task.target = target

/-- Permits and targets are where the tasks are that have them. -/
structure Accounted (semaphore : Semaphore π) (limit : Nat) (watch : Watch π) : Prop where
  spare : semaphore.spare watch.permits + watch.holding = limit
  waits : ∀ {id}, semaphore.waits watch.permits id → ∃ task, watch.tasks[id]? = some task ∧ task.stage.waits = true
  inFlight : ∀ target, target ∈ watch.monitor.inFlight ↔ ∃ id, watch.Sweeps id target
  once : ∀ {target id id'}, watch.Sweeps id target → watch.Sweeps id' target → id = id'

end Watch

/-! ## One task goes on -/

namespace SweepStage

variable {π : Type} (semaphore : Semaphore π) (stopped : Bool) (task : Nat) (permits : π) (stage : SweepStage)

/-- A permit is with the task, or with the semaphore. -/
theorem spare_next : semaphore.spare (stage.next semaphore stopped task permits).2 +
      (stage.next semaphore stopped task permits).1.holds.toNat = semaphore.spare permits + stage.holds.toNat := by
  cases stage with
  | waiting => cases stopped <;> rfl
  | asking =>
    simp only [next]
    cases hgot : (semaphore.ask task permits).1 with
    | true => exact semaphore.spare_got hgot
    | false => exact semaphore.spare_not_got hgot
  | quitting => exact semaphore.spare_withdraw task permits
  | enforcing => rfl
  | settling => exact semaphore.spare_giveBack permits
  | leaving => rfl
  | ended => rfl

/-- A task that waits afterwards is in a stage in which it waits; for the others nothing changes. -/
theorem waits_next (hwaits : semaphore.waits permits task → stage.waits = true) {id : Nat}
    (h : semaphore.waits (stage.next semaphore stopped task permits).2 id) :
    (id = task ∧ (stage.next semaphore stopped task permits).1.waits = true) ∨ (id ≠ task ∧ semaphore.waits permits id) := by
  by_cases hid : id = task
  · subst hid
    refine Or.inl ⟨rfl, ?_⟩
    cases stage with
    | waiting => cases stopped <;> rfl
    | asking =>
      simp only [next] at h ⊢
      cases hgot : (semaphore.ask id permits).1 with
      | true => exact absurd h (semaphore.not_waits_got hgot)
      | false => rfl
    | quitting => exact absurd rfl (semaphore.waits_withdraw h).2
    | enforcing => exact hwaits h
    | settling => exact hwaits (semaphore.waits_giveBack h)
    | leaving => exact hwaits h
    | ended => exact hwaits h
  · refine Or.inr ⟨hid, ?_⟩
    cases stage with
    | waiting => exact h
    | asking => exact semaphore.waits_ask hid h
    | quitting => exact (semaphore.waits_withdraw h).1
    | enforcing => exact h
    | settling => exact semaphore.waits_giveBack h
    | leaving => exact h
    | ended => exact h

/-- A task ends when it has freed its target. -/
theorem isOpen_next : (stage.next semaphore stopped task permits).1.isOpen = (stage.isOpen && stage != .leaving) := by
  cases stage with
  | waiting => cases stopped <;> rfl
  | asking =>
    simp only [next]
    cases (semaphore.ask task permits).1 <;> rfl
  | quitting => rfl
  | enforcing => rfl
  | settling => rfl
  | leaving => rfl
  | ended => rfl

/-- Once the monitor has been shut down, a task that looks at it goes without a permit. -/
theorem isBarred_next (h : stage.isBarred = true) : (stage.next semaphore true task permits).1.isBarred = true := by
  cases stage with
  | waiting => rfl
  | quitting => rfl
  | leaving => rfl
  | ended => rfl
  | asking => cases h
  | enforcing => cases h
  | settling => cases h

end SweepStage

/-! ## One move -/

namespace Watch

variable {π : Type} {semaphore : Semaphore π} {limit : Nat} {watch : Watch π} {id : Nat} {task : SweepTask}

/-- Before its first look a monitor is accounted for. -/
theorem accounted_opened (semaphore : Semaphore π) {monitor : Monitor} (h : monitor.inFlight = []) (limit : Nat) :
    (opened semaphore monitor limit).Accounted semaphore limit where
  spare := semaphore.spare_opened limit
  waits h := absurd h semaphore.not_waits_opened
  inFlight target := by simp [opened, h, Sweeps]
  once h := by
    obtain ⟨task, htask, -⟩ := h
    cases htask

/-- The monitor looks at its targets one after the other. -/
theorem look_cons (watch : Watch π) (target : String) (targets : List String) :
    watch.look (target :: targets) =
      if target ∈ watch.monitor.inFlight then watch.look targets else (watch.start target).look targets := by
  by_cases hflight : target ∈ watch.monitor.inFlight
  · simp [look, Monitor.start, hflight]
  · simp [look, start, Monitor.start, hflight]

/-- With a sweep started one task more sweeps its target. -/
theorem sweeps_start (watch : Watch π) (target : String) (id : Nat) (target' : String) :
    (watch.start target).Sweeps id target' ↔ watch.Sweeps id target' ∨ id = watch.tasks.length ∧ target' = target := by
  simp only [Sweeps, start, List.getElem?_append]
  rcases Nat.lt_trichotomy id watch.tasks.length with hid | rfl | hid
  · simp [hid, Nat.ne_of_lt hid]
  · simp [SweepStage.isOpen, eq_comm (a := target)]
  · simp [Nat.not_lt_of_gt hid, Nat.ne_of_gt hid, Nat.sub_ne_zero_of_lt hid]

/-- A monitor stays accounted for when a sweep is started of a target that is not in flight. -/
theorem Accounted.start (h : watch.Accounted semaphore limit) {target : String} (hfree : target ∉ watch.monitor.inFlight) :
    (watch.start target).Accounted semaphore limit where
  spare := by
    have hspare := h.spare
    simp only [Watch.start, holding, List.countP_append] at hspare ⊢
    exact hspare
  waits hwaits := by
    obtain ⟨task, htask, hstage⟩ := h.waits hwaits
    exact ⟨task, (List.getElem?_append_left (List.getElem?_eq_some_iff.mp htask).1).trans htask, hstage⟩
  inFlight target' := by
    simp only [sweeps_start, exists_or, ← h.inFlight, exists_eq_left]
    simp [Watch.start]
  once := by
    intro target' id id' hid hid'
    rw [sweeps_start] at hid hid'
    -- the target had no task before
    have hnone : ∀ id, ¬watch.Sweeps id target := fun id hsweeps => hfree ((h.inFlight target).mpr ⟨id, hsweeps⟩)
    rcases hid with hid | ⟨rfl, rfl⟩
    · rcases hid' with hid' | ⟨rfl, rfl⟩
      · exact h.once hid hid'
      · exact absurd hid (hnone id)
    · rcases hid' with hid' | ⟨rfl, -⟩
      · exact absurd hid' (hnone id')
      · rfl

/-- A monitor stays accounted for with every look. -/
theorem Accounted.look (h : watch.Accounted semaphore limit) (targets : List String) :
    (watch.look targets).Accounted semaphore limit := by
  induction targets generalizing watch with
  | nil => simpa [Watch.look, Monitor.start] using h
  | cons target targets ih =>
    rw [look_cons]
    split
    · exact ih h
    · rename_i hfree
      exact ih (h.start hfree)

theorem proceed_of_none (h : watch.tasks[id]? = none) : watch.proceed semaphore id = watch := by
  simp [proceed, h]

/-- A task that goes on takes its stage to the next one, and tells the monitor when it leaves. -/
theorem proceed_of_some (h : watch.tasks[id]? = some task) :
    watch.proceed semaphore id =
      ⟨if task.stage = .leaving then watch.monitor.finish task.target else watch.monitor,
        (task.stage.next semaphore watch.monitor.stopped id watch.permits).2,
        watch.tasks.set id { task with stage := (task.stage.next semaphore watch.monitor.stopped id watch.permits).1 }⟩ := by
  simp [proceed, h]

/-- A task that goes on sweeps its target until it has left. -/
theorem sweeps_proceed (htask : watch.tasks[id]? = some task) (id' : Nat) (target : String) :
    (watch.proceed semaphore id).Sweeps id' target ↔ watch.Sweeps id' target ∧ ¬(id' = id ∧ task.stage = .leaving) := by
  rw [proceed_of_some htask]
  simp only [Sweeps, List.getElem?_set]
  by_cases hid : id = id'
  · subst hid
    obtain ⟨hlt, hget⟩ := List.getElem?_eq_some_iff.mp htask
    simp [hlt, hget, SweepStage.isOpen_next, and_right_comm]
  · simp [hid, Ne.symm hid]

/-- As a task goes on, the permits that are held change by its own. -/
theorem holding_proceed (htask : watch.tasks[id]? = some task) :
    (watch.proceed semaphore id).holding + task.stage.holds.toNat =
      watch.holding + (task.stage.next semaphore watch.monitor.stopped id watch.permits).1.holds.toNat := by
  obtain ⟨hlt, hget⟩ := List.getElem?_eq_some_iff.mp htask
  have hcounted := List.boole_getElem_le_countP (p := fun task : SweepTask => task.stage.holds) hlt
  rw [proceed_of_some htask, holding, holding, List.countP_set hlt, hget]
  rw [hget] at hcounted
  have htoNat : ∀ holds : Bool, holds.toNat = if holds = true then 1 else 0 := by decide
  simp only [htoNat]
  omega

section Proceed

variable (h : watch.Accounted semaphore limit) (htask : watch.tasks[id]? = some task)

include h htask

/-- The permits that are spare and those that are held are all there are, also when a task has gone on. -/
theorem Accounted.spare_proceed :
    semaphore.spare (watch.proceed semaphore id).permits + (watch.proceed semaphore id).holding = limit := by
  have hspare := SweepStage.spare_next semaphore watch.monitor.stopped id watch.permits task.stage
  have hholding : (watch.proceed semaphore id).holding + _ = _ := holding_proceed htask
  have htotal := h.spare
  rw [proceed_of_some htask] at hholding ⊢
  dsimp only at hholding ⊢
  omega

/-- Whoever waits for a permit is a task that waits, also when another has gone on. -/
theorem Accounted.waits_proceed {other : Nat} (hwaits : semaphore.waits (watch.proceed semaphore id).permits other) :
    ∃ task, (watch.proceed semaphore id).tasks[other]? = some task ∧ task.stage.waits = true := by
  rw [proceed_of_some htask] at hwaits ⊢
  have hlt := (List.getElem?_eq_some_iff.mp htask).1
  have hbefore : semaphore.waits watch.permits id → task.stage.waits = true := by
    intro hid
    obtain ⟨task', htask', hstage⟩ := h.waits hid
    rw [htask] at htask'
    exact Option.some.inj htask' ▸ hstage
  rcases SweepStage.waits_next semaphore _ id watch.permits task.stage hbefore hwaits with ⟨rfl, hstage⟩ | ⟨hne, hold⟩
  · exact ⟨_, List.getElem?_set_self hlt, hstage⟩
  · rw [List.getElem?_set_ne hne.symm]
    exact h.waits hold

/-- A target is no longer in flight when the task that sweeps it frees it: no other one sweeps it. -/
theorem Accounted.mem_inFlight_proceed (target : String) :
    target ∈ (watch.proceed semaphore id).monitor.inFlight ↔ ∃ id', (watch.proceed semaphore id).Sweeps id' target := by
  simp only [sweeps_proceed htask]
  rw [proceed_of_some htask]
  by_cases hleaving : task.stage = .leaving
  · have hself : watch.Sweeps id task.target := ⟨task, htask, by rw [hleaving]; rfl, rfl⟩
    rw [if_pos hleaving]
    change target ∈ watch.monitor.inFlight.filter (· != task.target) ↔ _
    rw [List.mem_filter, h.inFlight, bne_iff_ne]
    constructor
    · rintro ⟨⟨id', hid'⟩, hother⟩
      refine ⟨id', hid', ?_⟩
      rintro ⟨rfl, -⟩
      obtain ⟨task', htask', -, rfl⟩ := hid'
      rw [htask] at htask'
      exact hother (Option.some.inj htask' ▸ rfl)
    · rintro ⟨id', hid', hother⟩
      refine ⟨⟨id', hid'⟩, ?_⟩
      rintro rfl
      exact hother ⟨h.once hid' hself, hleaving⟩
  · simpa [hleaving] using h.inFlight target

end Proceed

/-- A monitor stays accounted for when a task goes on. -/
theorem Accounted.proceed (h : watch.Accounted semaphore limit) (id : Nat) :
    (watch.proceed semaphore id).Accounted semaphore limit := by
  cases htask : watch.tasks[id]? with
  | none =>
    rw [proceed_of_none htask]
    exact h
  | some task =>
    refine ⟨h.spare_proceed htask, h.waits_proceed htask, h.mem_inFlight_proceed htask, fun hid hid' => ?_⟩
    exact h.once ((sweeps_proceed htask _ _).mp hid).1 ((sweeps_proceed htask _ _).mp hid').1

/-- Whatever happens next, permits and targets stay where the tasks are that have them. -/
theorem Accounted.take (h : watch.Accounted semaphore limit) (move : WatchMove) :
    (watch.take semaphore move).Accounted semaphore limit := by
  cases move with
  | look targets => exact h.look targets
  | proceed id => exact h.proceed id
  | stop => exact ⟨h.spare, h.waits, h.inFlight, h.once⟩

/-- A monitor stays accounted for with any moves. -/
theorem Accounted.follow (h : watch.Accounted semaphore limit) (moves : List WatchMove) :
    (watch.follow semaphore moves).Accounted semaphore limit := by
  induction moves generalizing watch with
  | nil => exact h
  | cons move moves ih => exact ih (h.take move)

theorem proceed_set (monitor : Monitor) (permits : π) {tasks : List SweepTask} (hlt : id < tasks.length) (target : String)
    (stage : SweepStage) :
    (⟨monitor, permits, tasks.set id ⟨target, stage⟩⟩ : Watch π).proceed semaphore id =
      ⟨if stage = .leaving then monitor.finish target else monitor, (stage.next semaphore monitor.stopped id permits).2,
        tasks.set id ⟨target, (stage.next semaphore monitor.stopped id permits).1⟩⟩ := by
  have htask : (⟨monitor, permits, tasks.set id ⟨target, stage⟩⟩ : Watch π).tasks[id]? = some ⟨target, stage⟩ :=
    List.getElem?_set_self hlt
  rw [proceed_of_some htask, List.set_set]

/-- A task that goes on alone comes to its end, and leaves the monitor as a sweep does that is run at once. -/
theorem proceed_to_end {target : String} (htask : watch.tasks[id]? = some ⟨target, .waiting⟩)
    (hgoes : watch.monitor.stopped = true ∨ (semaphore.ask id watch.permits).1 = true) :
    (watch.follow semaphore (List.replicate 5 (.proceed id))).monitor = watch.monitor.finish target ∧
      (watch.follow semaphore (List.replicate 5 (.proceed id))).tasks = watch.tasks.set id ⟨target, .ended⟩ := by
  obtain ⟨hlt, hget⟩ := List.getElem?_eq_some_iff.mp htask
  have hstart : watch = ⟨watch.monitor, watch.permits, watch.tasks.set id ⟨target, .waiting⟩⟩ := by
    rw [← hget, List.set_getElem_self]
  have hfive : watch.follow semaphore (List.replicate 5 (.proceed id)) =
      ((((watch.proceed semaphore id).proceed semaphore id).proceed semaphore id).proceed semaphore id).proceed semaphore
        id := rfl
  rw [hfive, hstart]
  simp only [proceed_set, hlt]
  cases hstopped : watch.monitor.stopped with
  | true => simp [SweepStage.next]
  | false =>
    rw [hstopped] at hgoes
    simp [SweepStage.next, hgoes.resolve_left Bool.false_ne_true]

/-! ## A monitor that was shut down -/

/-- The monitor was shut down, and a task is out of reach of a permit. -/
structure Barred (watch : Watch π) (id : Nat) : Prop where
  stopped : watch.monitor.stopped = true
  barred : ∃ task, watch.tasks[id]? = some task ∧ task.stage.isBarred = true

theorem stopped_look (watch : Watch π) (targets : List String) :
    (watch.look targets).monitor.stopped = watch.monitor.stopped := by
  induction targets generalizing watch with
  | nil => rfl
  | cons target targets ih =>
    rw [look_cons]
    split
    · exact ih watch
    · exact ih (watch.start target)

/-- A task that was barred stays so with every move. -/
theorem Barred.take (h : watch.Barred id) (semaphore : Semaphore π) (move : WatchMove) :
    (watch.take semaphore move).Barred id := by
  obtain ⟨hstopped, task, htask, hbarred⟩ := h
  have hlt := (List.getElem?_eq_some_iff.mp htask).1
  cases move with
  | look targets =>
    refine ⟨(stopped_look watch targets).trans hstopped, task, ?_, hbarred⟩
    exact (List.getElem?_append_left hlt).trans htask
  | stop => exact ⟨rfl, task, htask, hbarred⟩
  | proceed id' =>
    change (watch.proceed semaphore id').Barred id
    cases htask' : watch.tasks[id']? with
    | none =>
      rw [proceed_of_none htask']
      exact ⟨hstopped, task, htask, hbarred⟩
    | some task' =>
      rw [proceed_of_some htask']
      refine ⟨?_, ?_⟩
      · dsimp only
        split <;> exact hstopped
      · by_cases hid : id' = id
        · subst hid
          obtain rfl := Option.some.inj (htask'.symm.trans htask)
          refine ⟨_, List.getElem?_set_self hlt, ?_⟩
          rw [hstopped]
          exact SweepStage.isBarred_next semaphore id' watch.permits task'.stage hbarred
        · exact ⟨task, (List.getElem?_set_ne hid).trans htask, hbarred⟩

/-- A task that was barred stays so with any moves. -/
theorem Barred.follow (h : watch.Barred id) (semaphore : Semaphore π) (moves : List WatchMove) :
    (watch.follow semaphore moves).Barred id := by
  induction moves generalizing watch with
  | nil => exact h
  | cons move moves ih => exact ih (h.take semaphore move)

/-! ## All moves -/

/-- What a monitor made for some settings comes to. -/
def Reached (semaphore : Semaphore π) (settings : Settings) (watch : Watch π) : Prop :=
  ∃ monitor moves, Monitor.ofSettings settings = .ok monitor ∧
    watch = (opened semaphore monitor settings.sweeps.toNat).follow semaphore moves

/-- A monitor that is made of settings has room for a sweep, and none is in flight. -/
theorem of_ofSettings {settings : Settings} {monitor : Monitor} (h : Monitor.ofSettings settings = .ok monitor) :
    0 < settings.sweeps ∧ monitor.inFlight = [] := by
  unfold Monitor.ofSettings at h
  cases hinterval : settings.interval with
  | error error =>
    rw [hinterval] at h
    cases h
  | ok interval =>
    rw [hinterval] at h
    by_cases hsweeps : settings.sweeps ≤ 0
    · simp [hsweeps, bind, Except.bind, throw, throwThe, MonadExceptOf.throw] at h
    · simp [hsweeps, bind, Except.bind, pure, Except.pure] at h
      exact ⟨Int.not_le.mp hsweeps, by rw [← h]⟩

/-- A watch that was reached is accounted for. -/
theorem Reached.accounted {settings : Settings} (h : watch.Reached semaphore settings) :
    0 < settings.sweeps ∧ watch.Accounted semaphore settings.sweeps.toNat := by
  obtain ⟨monitor, moves, hmonitor, rfl⟩ := h
  obtain ⟨hsweeps, hflight⟩ := of_ofSettings hmonitor
  exact ⟨hsweeps, (accounted_opened semaphore hflight _).follow moves⟩

/-- No more sweeps enforce quotas than hold permits. -/
theorem enforcing_le_holding (watch : Watch π) : watch.enforcing ≤ watch.holding := by
  refine List.countP_mono_left fun task _ h => ?_
  rw [beq_iff_eq.mp h]
  rfl

/-- Never do more sweeps enforce a quota than the settings allow, nor two the same one; in flight is what has a task that has
not ended. Every permit is spare or with a task, and when all tasks have ended, whoever asks gets one. Whoever waits when the
monitor has been shut down, or begins to wait then, gets no permit any more. -/
theorem sweeps_side_by_side {settings : Settings} (h : watch.Reached semaphore settings) :
    (watch.enforcing : Int) ≤ settings.sweeps ∧
      (∀ target id id', watch.Sweeps id target → watch.Sweeps id' target → id = id') ∧
      (∀ target, target ∈ watch.monitor.inFlight ↔ ∃ id, watch.Sweeps id target) ∧
      (semaphore.spare watch.permits + watch.holding : Int) = settings.sweeps ∧
      ((∀ id target, ¬watch.Sweeps id target) →
        (semaphore.spare watch.permits : Int) = settings.sweeps ∧ ∀ id, (semaphore.ask id watch.permits).1 = true) ∧
      (watch.monitor.stopped = true →
        ∀ (id : Nat) (task : SweepTask), watch.tasks[id]? = some task → task.stage.isBarred = true →
          ∀ (moves : List WatchMove) (task' : SweepTask), (watch.follow semaphore moves).tasks[id]? = some task' →
            task'.stage.isBarred = true) := by
  obtain ⟨hpositive, haccounted⟩ := h.accounted
  have hspare := haccounted.spare
  have henforcing := watch.enforcing_le_holding
  refine ⟨by omega, fun _ _ _ => haccounted.once, haccounted.inFlight, by omega, fun hended => ?_, ?_⟩
  · -- tasks that have a permit, or wait for one, have not ended
    have hclosed : ∀ task ∈ watch.tasks, task.stage = .ended := by
      intro task htask
      obtain ⟨id, hid⟩ := List.getElem?_of_mem htask
      refine Decidable.byContradiction fun hopen => ?_
      exact hended id task.target ⟨task, hid, bne_iff_ne.mpr hopen, rfl⟩
    have hholding : watch.holding = 0 := by
      refine List.countP_eq_zero.mpr fun task htask => ?_
      rw [hclosed task htask]
      decide
    have hnobody : ∀ id, ¬semaphore.waits watch.permits id := by
      intro id hwaits
      obtain ⟨task, htask, hstage⟩ := haccounted.waits hwaits
      rw [hclosed task (List.mem_of_getElem? htask)] at hstage
      cases hstage
    refine ⟨by omega, fun id => semaphore.got_of_spare hnobody (by omega)⟩
  · intro hstopped id task htask hbarred moves task' htask'
    obtain ⟨-, later, hlater, hbarred'⟩ := Barred.follow ⟨hstopped, task, htask, hbarred⟩ semaphore moves
    rw [htask'] at hlater
    exact Option.some.inj hlater ▸ hbarred'

/-- One permit and two sweeps: the first one enforces its quota, and the other one waits and never gets to it. -/
theorem waiting_sweep_shut_out :
    let watch := (opened Semaphore.fair ⟨10000, [], false⟩ 1).follow Semaphore.fair
      [.look ["lanes", "roads"], .proceed 0, .proceed 1, .proceed 0, .proceed 1, .stop]
    watch.enforcing = 1 ∧ watch.tasks[1]? = some ⟨"roads", .waiting⟩ ∧
      ∀ (moves : List WatchMove) (task : SweepTask), (watch.follow Semaphore.fair moves).tasks[1]? = some task →
        task.stage.isBarred = true := by
  intro watch
  have hreached : watch.Reached Semaphore.fair { Settings.standard with sweeps := 1 } := ⟨⟨10000, [], false⟩, _, rfl, rfl⟩
  have hwaits : watch.tasks[1]? = some ⟨"roads", .waiting⟩ := by decide
  obtain ⟨-, -, -, -, -, hbarred⟩ := sweeps_side_by_side hreached
  exact ⟨by decide, hwaits, hbarred rfl 1 _ hwaits rfl⟩

end Watch

end TileDepot
