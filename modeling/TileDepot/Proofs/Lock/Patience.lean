import TileDepot.Proofs.Lock.Waits

/-!
# When a wait for a lock ends

A wait goes on through turns in which the attempt is in vain and the clock does not yet tell it to give up, and one more turn ends
it. The elapsed time and the timeout are compared as signed words. A timeout that fits into such a word is waited out to the
millisecond, however the clock runs; a larger one has become negative, and the first look at the clock ends the wait.
-/

namespace TileDepot

/-- The first number that is too large for a signed word. -/
def wordLimit : Nat := 2 ^ 63

namespace Waiter

variable {σ α : Type}

/-- Turns in which an attempt was in vain, the clock showed some reading, and nothing cancelled the pause. -/
inductive Waits (waiter : Waiter σ α) : σ → List Int → σ → Prop where
  | none (state : σ) : Waits waiter state [] state
  | turn {state tried before : σ} {readings : List Int} (hattempt : waiter.attempt state = (.ok none, tried))
      (hpause : (waiter.pause (waiter.readClock tried).2).1 = false)
      (hrest : Waits waiter (waiter.pause (waiter.readClock tried).2).2 readings before) :
      Waits waiter state ((waiter.readClock tried).1 :: readings) before

/-- A look at the clock ends a wait. -/
def GivesUp (timeout : Nat) (started now : Int) : Prop := signedMillis timeout ≤ elapsedMillis started now

instance (timeout : Nat) (started now : Int) : Decidable (GivesUp timeout started now) := Int.decLe _ _

/-- What can end a wait in one turn. -/
inductive Ends (waiter : Waiter σ α) (key : String) (timeout : Nat) (started : Int) : σ → WaitOutcome α → σ → Prop where
  | obtained {state after : σ} {value : α} (hattempt : waiter.attempt state = (.ok (some value), after)) :
    Ends waiter key timeout started state (.obtained value) after
  | fault {state after : σ} {error : Error} (hattempt : waiter.attempt state = (.error error, after)) :
    Ends waiter key timeout started state (.failed error) after
  | timeout {state tried : σ} (hattempt : waiter.attempt state = (.ok none, tried))
    (hclock : GivesUp timeout started (waiter.readClock tried).1) :
    Ends waiter key timeout started state
      (.failed (.lockTimeout key (elapsedMillis started (waiter.readClock tried).1).toNat)) (waiter.readClock tried).2
  | cancelled {state tried : σ} (hattempt : waiter.attempt state = (.ok none, tried))
    (hclock : ¬GivesUp timeout started (waiter.readClock tried).1)
    (hpause : (waiter.pause (waiter.readClock tried).2).1 = true) :
    Ends waiter key timeout started state (.failed (.lockInterrupted key)) (waiter.pause (waiter.readClock tried).2).2

/-- Attempts fail only when the files cannot be read or written. -/
def FailsByIO (waiter : Waiter σ α) : Prop :=
  ∀ {state after : σ} {error : Error}, waiter.attempt state = (.error error, after) → ∃ reason, error = .io reason

/-- A wait is not over after fewer turns than it is watched for: all attempts were in vain, and at no look at the clock had the
timeout passed. -/
def StillWaits (waiter : Waiter σ α) (timeout : Nat) (started : Int) (turns : Nat) (state before : σ) : Prop :=
  ∃ readings : List Int, readings.length < turns ∧ waiter.Waits state readings before ∧ ∀ now ∈ readings, now - started < timeout

/-- A wait that times out only when the timeout has passed, and says how long it took as far as a word holds that, and that obtains
what the first successful attempt brings. -/
structure Punctual (waiter : Waiter σ α) (key : String) (timeout : Nat) (started : Int) (state : σ) : Prop where
  timesOut_iff : ∀ {turns : Nat} {named : String} {waited : Nat} {after : σ},
    waiter.run key timeout started turns state = (.failed (.lockTimeout named waited), after) ↔
      named = key ∧ ∃ before tried : σ, waiter.StillWaits timeout started turns state before ∧
        waiter.attempt before = (.ok none, tried) ∧ after = (waiter.readClock tried).2 ∧
        timeout ≤ (waiter.readClock tried).1 - started ∧
        waited = min ((waiter.readClock tried).1 - started) Binary64.maxInt64
  obtains_iff : ∀ {turns : Nat} {value : α} {after : σ},
    waiter.run key timeout started turns state = (.obtained value, after) ↔
      ∃ before : σ, waiter.StillWaits timeout started turns state before ∧ waiter.attempt before = (.ok (some value), after)

variable {waiter : Waiter σ α} {key : String} {timeout turns : Nat} {started now : Int} {state before after : σ}
  {outcome : WaitOutcome α} {readings : List Int}

/-! ## Turns -/

/-- A turn whose attempt was in vain. -/
theorem run_of_vain {tried : σ} (hattempt : waiter.attempt state = (.ok none, tried)) (key : String) (timeout : Nat)
    (started : Int) (turns : Nat) : waiter.run key timeout started (turns + 1) state =
      if GivesUp timeout started (waiter.readClock tried).1 then
        (.failed (.lockTimeout key (elapsedMillis started (waiter.readClock tried).1).toNat), (waiter.readClock tried).2)
      else if (waiter.pause (waiter.readClock tried).2).1 then
        (.failed (.lockInterrupted key), (waiter.pause (waiter.readClock tried).2).2)
      else waiter.run key timeout started turns (waiter.pause (waiter.readClock tried).2).2 := by
  rw [run, hattempt]
  rfl

/-- A run is where it was after the turns that did not end it. -/
theorem run_of_waits (h : waiter.Waits state readings before) (hpatient : ∀ now ∈ readings, ¬GivesUp timeout started now)
    (turns : Nat) : waiter.run key timeout started (readings.length + turns) state =
      waiter.run key timeout started turns before := by
  induction h with
  | none => rw [List.length_nil, Nat.zero_add]
  | @turn state tried before readings hattempt hpause hrest ih =>
    obtain ⟨hclock, hpatient⟩ := List.forall_mem_cons.mp hpatient
    rw [List.length_cons, Nat.add_right_comm, run_of_vain hattempt, if_neg hclock, hpause]
    exact ih hpatient

/-- A wait that ends at the next attempt is over, however many attempts are left. -/
theorem run_of_ends (h : waiter.Ends key timeout started state outcome after) (turns : Nat) :
    waiter.run key timeout started (turns + 1) state = (outcome, after) := by
  cases h with
  | obtained hattempt => rw [run, hattempt]
  | fault hattempt => rw [run, hattempt]
  | timeout hattempt hclock => rw [run_of_vain hattempt, if_pos hclock]
  | cancelled hattempt hclock hpause => rw [run_of_vain hattempt, if_neg hclock, if_pos hpause]

/-- A turn ends a wait, or the wait goes on from what the turn has left. -/
theorem turn_cases (waiter : Waiter σ α) (key : String) (timeout : Nat) (started : Int) (state : σ) :
    (∃ (outcome : WaitOutcome α) (after : σ), waiter.Ends key timeout started state outcome after) ∨
      ∃ tried : σ, waiter.attempt state = (.ok none, tried) ∧ ¬GivesUp timeout started (waiter.readClock tried).1 ∧
        (waiter.pause (waiter.readClock tried).2).1 = false := by
  cases hattempt : waiter.attempt state with
  | mk taken tried =>
    obtain error | value | value := taken
    · exact Or.inl ⟨_, _, .fault hattempt⟩
    · by_cases hclock : GivesUp timeout started (waiter.readClock tried).1
      · exact Or.inl ⟨_, _, .timeout hattempt hclock⟩
      cases hpause : (waiter.pause (waiter.readClock tried).2).1 with
      | true => exact Or.inl ⟨_, _, .cancelled hattempt hclock hpause⟩
      | false => exact Or.inr ⟨tried, rfl, hclock, hpause⟩
    · exact Or.inl ⟨_, _, .obtained hattempt⟩

/-- A run comes to a turn that ends it, or to the end of the time that it is watched for. -/
theorem exists_waits (waiter : Waiter σ α) (key : String) (timeout : Nat) (started : Int) (turns : Nat) (state : σ) :
    ∃ (readings : List Int) (before : σ), waiter.Waits state readings before ∧
      (∀ now ∈ readings, ¬GivesUp timeout started now) ∧
      (readings.length < turns ∧ waiter.Ends key timeout started before (waiter.run key timeout started turns state).1
          (waiter.run key timeout started turns state).2 ∨
        waiter.run key timeout started turns state = (.waiting, before)) := by
  induction turns generalizing state with
  | zero => exact ⟨[], state, .none state, nofun, Or.inr rfl⟩
  | succ turns ih =>
    rcases waiter.turn_cases key timeout started state with ⟨outcome, after, hends⟩ | ⟨tried, hattempt, hclock, hpause⟩
    · rw [run_of_ends hends turns]
      exact ⟨[], state, .none state, nofun, Or.inl ⟨Nat.succ_pos turns, hends⟩⟩
    · obtain ⟨readings, before, hwaits, hpatient, hlast⟩ := ih (waiter.pause (waiter.readClock tried).2).2
      rw [run_of_vain hattempt, if_neg hclock, hpause]
      exact ⟨_, before, .turn hattempt hpause hwaits, List.forall_mem_cons.mpr ⟨hclock, hpatient⟩,
        hlast.imp_left fun hlast => ⟨Nat.succ_lt_succ hlast.1, hlast.2⟩⟩

/-- A wait that is over went through turns that did not end it, and one that did. -/
theorem run_eq_iff (houtcome : outcome ≠ .waiting) : waiter.run key timeout started turns state = (outcome, after) ↔
    ∃ (readings : List Int) (before : σ), readings.length < turns ∧ waiter.Waits state readings before ∧
      (∀ now ∈ readings, ¬GivesUp timeout started now) ∧ waiter.Ends key timeout started before outcome after := by
  constructor
  · intro hrun
    obtain ⟨readings, before, hwaits, hpatient, ⟨hlength, hends⟩ | hwaiting⟩ :=
      waiter.exists_waits key timeout started turns state
    · rw [hrun] at hends
      exact ⟨readings, before, hlength, hwaits, hpatient, hends⟩
    · exact absurd (Prod.mk.inj (hrun.symm.trans hwaiting)).1 houtcome
  · rintro ⟨readings, before, hlength, hwaits, hpatient, hends⟩
    obtain ⟨more, rfl⟩ := Nat.exists_eq_add_of_lt hlength
    rw [Nat.add_assoc, run_of_waits hwaits hpatient, run_of_ends hends]

/-! ## Timeouts as words -/

/-- A timeout in words is the signed number of the same bits. -/
theorem signedMillis_eq (timeout : Nat) : signedMillis timeout = (timeout : Int).bmod 18446744073709551616 := rfl

/-- A timeout that fits in a signed word stays what it is. -/
theorem signedMillis_of_lt (h : timeout < wordLimit) : signedMillis timeout = timeout := by
  have hlimit : wordLimit = 9223372036854775808 := by decide
  rw [signedMillis_eq, Int.bmod_def]
  push_cast
  omega

/-- A timeout that does not is below zero. -/
theorem signedMillis_of_ge (h : wordLimit ≤ timeout) (hmax : timeout ≤ Binary64.maxUInt64) : signedMillis timeout < 0 := by
  have hlimit : wordLimit = 9223372036854775808 := by decide
  have hword : Binary64.maxUInt64 = 18446744073709551615 := by decide
  rw [hlimit] at h
  rw [hword] at hmax
  rw [signedMillis_eq, Int.bmod_def]
  push_cast
  omega

/-- The time that has passed is told right up to the largest word. -/
theorem elapsedMillis_eq (h : 0 ≤ now - started) : elapsedMillis started now = min (now - started) Binary64.maxInt64 := by
  have hmin : Binary64.minInt64 < 0 := by decide
  rw [elapsedMillis, Binary64.clamp, if_neg (by omega)]
  split <;> omega

/-- A timeout that fits into a signed word is over when it has passed, not before. -/
theorem givesUp_iff (h : timeout < wordLimit) : GivesUp timeout started now ↔ timeout ≤ now - started := by
  have hlimit : wordLimit = 9223372036854775808 := by decide
  have hmin : Binary64.minInt64 = -9223372036854775808 := by decide
  have hmax : Binary64.maxInt64 = 9223372036854775807 := by decide
  rw [GivesUp, signedMillis_of_lt h, elapsedMillis, Binary64.clamp]
  split
  · omega
  · split <;> omega

/-- A larger one is over as soon as a clock that has not run backwards is looked at. -/
theorem givesUp_of_ge (h : wordLimit ≤ timeout) (hmax : timeout ≤ Binary64.maxUInt64) (hnow : started ≤ now) :
    GivesUp timeout started now := by
  have htimeout := signedMillis_of_ge h hmax
  have hword : (0 : Int) ≤ Binary64.maxInt64 := by decide
  rw [GivesUp, elapsedMillis_eq (by omega)]
  omega

/-- So the first attempt that is in vain ends the wait then. -/
theorem run_of_ge (h : wordLimit ≤ timeout) (hmax : timeout ≤ Binary64.maxUInt64) {tried : σ}
    (hattempt : waiter.attempt state = (.ok none, tried)) (hnow : started ≤ (waiter.readClock tried).1) (key : String)
    (turns : Nat) : waiter.run key timeout started (turns + 1) state =
      (.failed (.lockTimeout key (min ((waiter.readClock tried).1 - started) Binary64.maxInt64).toNat),
        (waiter.readClock tried).2) := by
  rw [run_of_ends (.timeout hattempt (givesUp_of_ge h hmax hnow)), elapsedMillis_eq (by omega)]

/-! ## Punctual waits -/

/-- A wait goes on while no reading of the clock makes it give up. -/
theorem stillWaits_iff (h : timeout < wordLimit) : waiter.StillWaits timeout started turns state before ↔
    ∃ readings : List Int, readings.length < turns ∧ waiter.Waits state readings before ∧
      ∀ now ∈ readings, ¬GivesUp timeout started now := by
  simp only [StillWaits, givesUp_iff h, not_le]

/-- Whatever a clock shows and whoever else is at work, a timeout that fits into a signed word is waited out. -/
theorem punctual_of_lt (h : timeout < wordLimit) (hfails : waiter.FailsByIO) :
    waiter.Punctual key timeout started state where
  timesOut_iff := by
    intro turns named waited after
    refine (run_eq_iff (by nofun)).trans ⟨?_, ?_⟩
    · rintro ⟨readings, before, hlength, hwaits, hpatient, hends⟩
      cases hends with
      | fault hattempt =>
        obtain ⟨reason, hreason⟩ := hfails hattempt
        cases hreason
      | @timeout tried hattempt hclock =>
        have hpassed := (givesUp_iff h).mp hclock
        refine ⟨rfl, before, tried, (stillWaits_iff h).mpr ⟨readings, hlength, hwaits, hpatient⟩, hattempt, rfl, hpassed, ?_⟩
        have hword : (0 : Int) ≤ Binary64.maxInt64 := by decide
        rw [elapsedMillis_eq (by omega)]
        omega
    · rintro ⟨rfl, before, tried, hstill, hattempt, rfl, hpassed, hwaited⟩
      obtain ⟨readings, hlength, hwaits, hpatient⟩ := (stillWaits_iff h).mp hstill
      have helapsed : waited = (elapsedMillis started (waiter.readClock tried).1).toNat := by
        rw [elapsedMillis_eq (by omega)]
        omega
      rw [helapsed]
      exact ⟨readings, before, hlength, hwaits, hpatient, .timeout hattempt ((givesUp_iff h).mpr hpassed)⟩
  obtains_iff := by
    intro turns value after
    refine (run_eq_iff (by nofun)).trans ⟨?_, ?_⟩
    · rintro ⟨readings, before, hlength, hwaits, hpatient, hends⟩
      cases hends with
      | obtained hattempt => exact ⟨before, (stillWaits_iff h).mpr ⟨readings, hlength, hwaits, hpatient⟩, hattempt⟩
    · rintro ⟨before, hstill, hattempt⟩
      obtain ⟨readings, hlength, hwaits, hpatient⟩ := (stillWaits_iff h).mp hstill
      exact ⟨readings, before, hlength, hwaits, hpatient, .obtained hattempt⟩

end Waiter

/-! ## Waits for a lock file -/

namespace LockRoom

variable {room : LockRoom} {name key named : String} {service : FileLockService} {patience waited : Nat} {cancelAt : Option Nat}
  {faults : Nat → Option FileFault}

/-- What goes wrong as a file is waited for is reported by the system. -/
theorem failsByIO_fileWaiter (path : String) (holder : Nat) (cancelAt : Option Nat) (faults : Nat → Option FileFault) :
    (fileWaiter path holder cancelAt faults).FailsByIO := by
  intro wait after error h
  exact LockFiles.attempt_error (fileWaiter_attempt h).1

/-- Where a request for a lock begins to wait for the file. -/
def waitFor (room : LockRoom) (service : FileLockService) (key : String) : FileWait where
  files := room.files
  service := { service with
    shards := service.shards.hold (service.shards.shardOf key)
    clock := service.clock + service.clockStep }
  elapsed := 0
  attempts := 0

/-- A request times out as its wait for the file does, which begins once it has the shard. -/
theorem acquireFile_timesOut_iff :
    (room.acquireFile name key service patience cancelAt faults).1 = .failed (.lockTimeout named waited) ↔
    service.cancelled = false ∧ service.shards.isFree (service.shards.shardOf key) = true ∧
      ((fileWaiter (service.pathOf key) room.nextHolder cancelAt faults).run key service.timeout service.clock
        (patience / service.backoff + 1) (room.waitFor service key)).1 = .failed (.lockTimeout named waited) := by
  unfold acquireFile
  dsimp only
  split
  · rename_i hcancelled
    simp [hcancelled]
  split
  · rename_i hheld
    rw [Bool.not_eq_true'] at hheld
    split <;> simp [hheld]
  · rename_i hcancelled hheld
    rw [Bool.not_eq_true', Bool.not_eq_false] at hheld
    rw [and_iff_right (Bool.eq_false_of_not_eq_true hcancelled), and_iff_right hheld]
    generalize hrun : Waiter.run _ _ _ _ _ _ = ended
    have hwait : (fileWaiter (service.pathOf key) room.nextHolder cancelAt faults).run key service.timeout service.clock
      (patience / service.backoff + 1) (room.waitFor service key) = ended := hrun
    rw [hwait]
    obtain ⟨outcome, wait⟩ := ended
    cases outcome <;> simp

/-- A request times out when so much time has passed since it began to wait for the file, and each attempt was in vain. -/
theorem acquireFile_timesOut (h : service.timeout < wordLimit)
    (htimesOut : (room.acquireFile name key service patience cancelAt faults).1 = .failed (.lockTimeout named waited)) :
    ∃ before tried : FileWait,
      (fileWaiter (service.pathOf key) room.nextHolder cancelAt faults).StillWaits service.timeout service.clock
        (patience / service.backoff + 1) (room.waitFor service key) before ∧
      before.files.attempt (service.pathOf key) room.nextHolder (faults before.attempts) = (.ok none, tried.files) ∧
      service.timeout ≤ tried.service.clock - service.clock ∧
      waited = min (tried.service.clock - service.clock) Binary64.maxInt64 := by
  obtain ⟨-, -, hrun⟩ := acquireFile_timesOut_iff.mp htimesOut
  have hpunctual : (fileWaiter (service.pathOf key) room.nextHolder cancelAt faults).Punctual key service.timeout
      service.clock (room.waitFor service key) := Waiter.punctual_of_lt h (failsByIO_fileWaiter _ _ _ _)
  obtain ⟨-, before, tried, hstill, hattempt, -, hpassed, hwaited⟩ :=
    hpunctual.timesOut_iff.mp (Prod.ext hrun rfl)
  exact ⟨before, tried, hstill, (fileWaiter_attempt hattempt).1, hpassed, hwaited⟩

/-- An attempt at which nothing goes wrong is in vain while somebody owns the file. -/
theorem fileWaiter_attempt_of_owned {wait : FileWait} {path : String} {inode owner : Nat}
    (hname : wait.files.names[path]? = some (.file inode)) (howner : wait.files.owners[inode]? = some owner)
    (hsound : faults wait.attempts = none) (holder : Nat) (cancelAt : Option Nat) :
    (fileWaiter path holder cancelAt faults).attempt wait = (.ok none, { wait with attempts := wait.attempts + 1 }) := by
  change ((wait.files.attempt path holder (faults wait.attempts)).1,
    { wait with files := (wait.files.attempt path holder (faults wait.attempts)).2, attempts := wait.attempts + 1 }) = _
  rw [hsound, LockFiles.attempt_of_owned hname howner]

/-- With a timeout that does not fit into a signed word, a request gives up at once when somebody else owns the file. -/
theorem acquireFile_of_owned (h : wordLimit ≤ service.timeout) (hmax : service.timeout ≤ Binary64.maxUInt64)
    (hcancelled : service.cancelled = false) (hfree : service.shards.isFree (service.shards.shardOf key) = true) {inode owner : Nat}
    (hname : room.files.names[service.pathOf key]? = some (.file inode)) (howner : room.files.owners[inode]? = some owner)
    (hclock : 0 ≤ service.clockStep) (hsound : faults 0 = none) (name : String) (patience : Nat) (cancelAt : Option Nat) :
    (room.acquireFile name key service patience cancelAt faults).1 =
      .failed (.lockTimeout key (min service.clockStep Binary64.maxInt64).toNat) := by
  have hattempt : (fileWaiter (service.pathOf key) room.nextHolder cancelAt faults).attempt (room.waitFor service key) =
      (.ok none, { room.waitFor service key with attempts := 1 }) := fileWaiter_attempt_of_owned hname howner hsound _ _
  have hreading : service.clock ≤ ((fileWaiter (service.pathOf key) room.nextHolder cancelAt faults).readClock
      { room.waitFor service key with attempts := 1 }).1 := by
    change service.clock ≤ service.clock + service.clockStep
    omega
  refine acquireFile_timesOut_iff.mpr ⟨hcancelled, hfree, ?_⟩
  rw [Waiter.run_of_ge h hmax hattempt hreading]
  change WaitOutcome.failed (.lockTimeout key (min (service.clock + service.clockStep - service.clock) _).toNat) = _
  rw [add_sub_cancel_left]

/-- Of the timeouts that a word can hold, those that fit into a signed word are waited out, whatever the clock shows and whoever
else is at work. -/
theorem waits_punctual_iff {timeout : Nat} (h : timeout ≤ Binary64.maxUInt64) :
    (∀ (σ : Type) (waiter : Waiter σ Nat) (key : String) (started : Int) (state : σ), waiter.FailsByIO →
      waiter.Punctual key timeout started state) ↔ timeout < 2 ^ 63 := by
  refine ⟨fun hpunctual => ?_, fun hlt σ waiter key started state hfails => Waiter.punctual_of_lt hlt hfails⟩
  by_contra hge
  -- A file that somebody owns, and a clock that stands still.
  let files : LockFiles := ⟨(∅ : Std.ExtTreeMap String FileEntry).insert "lock" (.file 0),
    (∅ : Std.ExtTreeMap Nat Nat).insert 0 0, 1⟩
  let wait : FileWait := ⟨files, ⟨"locks", ⟨1, Nat.one_pos, ∅⟩, 1, timeout, 0, 0, false⟩, 0, 0⟩
  let sound := fun _ : Nat => (none : Option FileFault)
  have hname : files.names["lock"]? = some (.file 0) := Std.ExtTreeMap.getElem?_insert_self
  have howner : files.owners[0]? = some 0 := Std.ExtTreeMap.getElem?_insert_self
  have hattempt : (fileWaiter "lock" 1 none sound).attempt wait = (.ok none, { wait with attempts := 1 }) :=
    fileWaiter_attempt_of_owned hname howner rfl 1 none
  have hrun := Waiter.run_of_ge (Nat.not_lt.mp hge) h hattempt (le_refl (0 : Int)) "tile" 0
  obtain ⟨-, before, tried, ⟨readings, hlength, hwaits, -⟩, htried, -, hpassed, -⟩ :=
    (hpunctual FileWait (fileWaiter "lock" 1 none sound) "tile" 0 wait (failsByIO_fileWaiter _ _ _ _)).timesOut_iff.mp hrun
  obtain rfl := List.length_eq_zero_iff.mp (Nat.lt_one_iff.mp hlength)
  cases hwaits
  rw [hattempt] at htried
  obtain rfl := (Prod.mk.inj htried).2
  change (timeout : Int) ≤ 0 - 0 at hpassed
  omega

/-- The timeout that is usual is waited out for every lock file. -/
theorem two_minutes_waited_out : 120000 ≤ Binary64.maxUInt64 ∧
    ∀ (path key : String) (holder : Nat) (cancelAt : Option Nat) (faults : Nat → Option FileFault) (started : Int)
      (wait : FileWait), (fileWaiter path holder cancelAt faults).Punctual key 120000 started wait := by
  have hmax : 120000 ≤ Binary64.maxUInt64 := by decide
  refine ⟨hmax, fun path key holder cancelAt faults started wait => ?_⟩
  exact (waits_punctual_iff hmax).mpr (by decide) FileWait _ key started wait (failsByIO_fileWaiter path holder cancelAt faults)

/-- A request that is to wait as long as a word can say gives up on a file that somebody owns before the clock has moved. -/
theorem longest_timeout_gives_up_at_once :
    let service : FileLockService := ⟨"locks", ⟨1, Nat.one_pos, ∅⟩, 20, Binary64.maxUInt64, 0, 0, false⟩
    let files : LockFiles := ⟨(∅ : Std.ExtTreeMap String FileEntry).insert (service.pathOf "tile") (.file 0),
      (∅ : Std.ExtTreeMap Nat Nat).insert 0 0, 1⟩
    ((⟨files, ∅, ∅, 1⟩ : LockRoom).acquireFile "waiter" "tile" service 0 none fun _ => none).1 = .failed (.lockTimeout "tile" 0) ∧
      0 < service.timeout := by
  intro service files
  have hname : files.names[service.pathOf "tile"]? = some (.file 0) := Std.ExtTreeMap.getElem?_insert_self
  have howner : files.owners[0]? = some 0 := Std.ExtTreeMap.getElem?_insert_self
  have hfree : service.shards.isFree (service.shards.shardOf "tile") = true := by simp [service, LockShards.isFree]
  exact ⟨acquireFile_of_owned (by decide) le_rfl rfl hfree hname howner le_rfl rfl "waiter" 0 none, by decide⟩

end LockRoom

end TileDepot
