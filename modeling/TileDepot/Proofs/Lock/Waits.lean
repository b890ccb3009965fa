import TileDepot.Lock.Room
import TileDepot.Proofs.Lock.Files

/-!
# What a request for a lock takes

However a wait for a lock ends, it has taken what the handle says that it hands out, and nothing if it hands out none: the shard
that was held through the wait is free again then, and no file is locked that was not.
-/

namespace TileDepot

/-- What a wait was for, if it was obtained. -/
def WaitOutcome.value? {α : Type} : WaitOutcome α → Option α
  | .obtained value => some value
  | .failed _ | .waiting => none

/-- The shards of a service. -/
def LockService.shards? : LockService → Option LockShards
  | .unguarded => none
  | .sharded shards => some shards
  | .file service => some service.shards

/-- The shard that a handle has, and the service that it is one of. -/
def LockHandle.place (handle : LockHandle) : Option (String × Nat) := handle.shard.map (handle.service, ·)

/-- What files have become when one was locked that nobody owned, under a name that stands for it, or none at all. Names may have
been added. -/
structure LockFiles.Gained (files : LockFiles) (file : Option (String × Nat)) (files' : LockFiles) : Prop where
  owners : ∃ holder : Nat, ∀ inode : Nat,
    files'.owners[inode]? = if file.map Prod.snd = some inode then some holder else files.owners[inode]?
  unlocked : ∀ inode : Nat, file.map Prod.snd = some inode → files.owners[inode]? = none
  names : ∀ {path : String} {entry : FileEntry}, files.names[path]? = some entry → files'.names[path]? = some entry
  named : ∀ (path : String) (inode : Nat), file = some (path, inode) → files'.names[path]? = some (.file inode)

namespace LockRoom

/-- The shards of the service of a name. -/
def shards? (room : LockRoom) (name : String) : Option LockShards := room.services[name]?.bind LockService.shards?

/-- The shard that a service has for a key. -/
def shardOf (room : LockRoom) (name key : String) : Option Nat := (room.shards? name).map (·.shardOf key)

/-- A shard of a service is held. -/
def IsHeld (room : LockRoom) (place : String × Nat) : Prop :=
  ∃ shards : LockShards, room.shards? place.1 = some shards ∧ place.2 ∈ shards.held

/-- What a room has become when just what a handle has was taken, which was free before, or nothing at all. -/
structure Took (room : LockRoom) (taken : Option LockHandle) (room' : LockRoom) : Prop where
  handles : room'.handles = room.handles
  shardOf : ∀ name key : String, room'.shardOf name key = room.shardOf name key
  held_iff : ∀ place : String × Nat, room'.IsHeld place ↔ room.IsHeld place ∨ taken.bind LockHandle.place = some place
  free : ∀ place : String × Nat, taken.bind LockHandle.place = some place → ¬room.IsHeld place
  files : room.files.Gained (taken.bind LockHandle.file) room'.files
  /-- A shard that was taken is the one of the key. -/
  keyed : ∀ (handle : LockHandle) (shard : Nat), taken = some handle → handle.shard = some shard →
    room.shardOf handle.service handle.key = some shard

end LockRoom

/-! ## Waits in general -/

namespace Waiter

variable {σ α : Type}

/-- What every turn keeps is so until a turn succeeds, or until the wait ends otherwise. -/
theorem run_cases (waiter : Waiter σ α) (kept : σ → Prop)
    (hattempt : ∀ {state state' : σ} {taken : Except Error (Option α)}, kept state → waiter.attempt state = (taken, state') →
      (∀ value, taken ≠ .ok (some value)) → kept state')
    (hclock : ∀ {state : σ}, kept state → kept (waiter.readClock state).2)
    (hpause : ∀ {state : σ}, kept state → kept (waiter.pause state).2) (key : String) (timeout : Nat) (started : Int)
    (turns : Nat) {state : σ} (hstate : kept state) :
    (∃ (value : α) (before : σ), kept before ∧ (waiter.run key timeout started turns state).1 = .obtained value ∧
        waiter.attempt before = (.ok (some value), (waiter.run key timeout started turns state).2)) ∨
      (waiter.run key timeout started turns state).1.value? = none ∧ kept (waiter.run key timeout started turns state).2 := by
  induction turns generalizing state with
  | zero => exact Or.inr ⟨rfl, hstate⟩
  | succ turns ih =>
    unfold run
    cases hturn : waiter.attempt state with
    | mk taken state' =>
      obtain error | value | value := taken
      · exact Or.inr ⟨rfl, hattempt hstate hturn nofun⟩
      · dsimp only
        have hread := hclock (hattempt hstate hturn nofun)
        split
        · exact Or.inr ⟨rfl, hread⟩
        split
        · exact Or.inr ⟨rfl, hpause hread⟩
        · exact ih (hpause hread)
      · exact Or.inl ⟨value, state, hstate, rfl, hturn⟩

end Waiter

/-! ## Waits for a lock file -/

namespace LockFiles

variable {files files' files'' : LockFiles} {path : String} {inode holder : Nat} {file : Option (String × Nat)}

/-- Files that stay what they are gain no owner. -/
theorem Gained.refl (files : LockFiles) : files.Gained none files := ⟨⟨0, fun _ => rfl⟩, nofun, id, nofun⟩

/-- Files that gain no owner have the same ones. -/
theorem Gained.owners_eq (h : files.Gained none files') : files'.owners = files.owners := by
  obtain ⟨holder, howners⟩ := h.owners
  exact Std.ExtTreeMap.ext_getElem? howners

/-- Files gain the owner of just the one that was locked. -/
theorem Gained.mem_owners_iff (h : files.Gained file files') :
    inode ∈ files'.owners ↔ inode ∈ files.owners ∨ file.map Prod.snd = some inode := by
  obtain ⟨holder, howners⟩ := h.owners
  rw [Std.ExtTreeMap.mem_iff_isSome_getElem?, Std.ExtTreeMap.mem_iff_isSome_getElem?, howners]
  split
  · rename_i hfile
    exact ⟨fun _ => Or.inr hfile, fun _ => rfl⟩
  · rename_i hfile
    exact (or_iff_left hfile).symm

/-- What is gained in a second stretch is gained in both. -/
theorem Gained.trans (h : files.Gained none files') (h' : files'.Gained file files'') : files.Gained file files'' where
  owners := h.owners_eq ▸ h'.owners
  unlocked := h.owners_eq ▸ h'.unlocked
  names hname := h'.names (h.names hname)
  named := h'.named

/-- Files gain no owner when one of them is opened. -/
theorem gained_openPath (h : files.openPath path = .ok (inode, files')) : files.Gained none files' :=
  ⟨⟨0, fun inode => congrArg (·[inode]?) (owners_openPath h)⟩, nofun, names_openPath h, nofun⟩

/-- Files gain the owner of the one that was locked. -/
theorem gained_tryLock (hname : files.names[path]? = some (.file inode))
    (h : files.tryLock inode holder none = .ok (some files')) : files.Gained (some (path, inode)) files' := by
  obtain ⟨hfree, rfl⟩ := tryLock_none_iff.mp h
  refine ⟨⟨holder, fun other => ?_⟩, fun other heq => Option.some.inj heq ▸ hfree, id, fun name other heq => ?_⟩
  · rw [Table.getElem?_insert]
    simp only [Option.map_some, Option.some_inj]
  · obtain ⟨rfl, rfl⟩ := Prod.mk.inj (Option.some.inj heq)
    exact hname

/-- An attempt that hands out no file has locked none, whatever went wrong. -/
theorem gained_attempt_none {fault : Option FileFault} {taken : Except Error (Option Nat)}
    (h : files.attempt path holder fault = (taken, files')) (hnone : ∀ inode, taken ≠ .ok (some inode)) :
    files.Gained none files' := by
  rcases attempt_cases h with ⟨error, -, rfl⟩ | ⟨inode, opened, hopen, ⟨-, rfl⟩ | ⟨-, rfl⟩⟩
  · exact .refl files'
  · exact gained_openPath hopen
  · exact absurd rfl (hnone inode)

/-- An attempt locks the file that it hands out. -/
theorem gained_attempt_some {fault : Option FileFault} (h : files.attempt path holder fault = (.ok (some inode), files')) :
    files.Gained (some (path, inode)) files' := by
  rcases attempt_cases h with ⟨error, herror, -⟩ | ⟨other, opened, hopen, ⟨hnone, -⟩ | ⟨hlock, hother⟩⟩
  · cases herror
  · exact absurd rfl (hnone inode)
  · obtain rfl := Option.some.inj (Except.ok.inj hother)
    exact (gained_openPath hopen).trans (gained_tryLock (name_openPath hopen) hlock)

end LockFiles

namespace LockRoom

variable {path : String} {holder : Nat} {cancelAt : Option Nat} {faults : Nat → Option FileFault} {wait wait' : FileWait}

/-- An attempt of a wait is one on the files, and beside them changes nothing but the number of attempts. -/
theorem fileWaiter_attempt {taken : Except Error (Option Nat)}
    (h : (fileWaiter path holder cancelAt faults).attempt wait = (taken, wait')) :
    wait.files.attempt path holder (faults wait.attempts) = (taken, wait'.files) ∧ wait'.service = wait.service := by
  obtain ⟨rfl, rfl⟩ := Prod.mk.inj h
  exact ⟨rfl, rfl⟩

/-- A wait for a lock file locks the file that it hands out, and leaves the shards alone. -/
theorem fileWaiter_run {key : String} {timeout : Nat} {started : Int} {turns : Nat} {outcome : WaitOutcome Nat}
    (h : (fileWaiter path holder cancelAt faults).run key timeout started turns wait = (outcome, wait')) :
    wait'.service.shards = wait.service.shards ∧ wait.files.Gained (outcome.value?.map (path, ·)) wait'.files := by
  let kept : FileWait → Prop := fun state => state.service.shards = wait.service.shards ∧ wait.files.Gained none state.files
  have hattempt : ∀ {state state' : FileWait} {taken : Except Error (Option Nat)}, kept state →
      (fileWaiter path holder cancelAt faults).attempt state = (taken, state') →
      (∀ inode, taken ≠ .ok (some inode)) → kept state' := by
    intro state state' taken hkept hattempt hnone
    obtain ⟨hfiles, hservice⟩ := fileWaiter_attempt hattempt
    exact ⟨hservice ▸ hkept.1, hkept.2.trans (LockFiles.gained_attempt_none hfiles hnone)⟩
  have hended := Waiter.run_cases (fileWaiter path holder cancelAt faults) kept hattempt id id key timeout started turns
    ⟨rfl, .refl wait.files⟩
  rw [h] at hended
  rcases hended with ⟨inode, before, hkept, rfl, hlast⟩ | ⟨houtcome, hkept⟩
  · obtain ⟨hfiles, hservice⟩ := fileWaiter_attempt hlast
    exact ⟨hservice ▸ hkept.1, hkept.2.trans (LockFiles.gained_attempt_some hfiles)⟩
  · dsimp only at houtcome
    rw [houtcome]
    exact hkept

end LockRoom

/-! ## Shards of services -/

namespace LockShards

variable {shards : LockShards} {shard other : Nat}

/-- A shard is free if nobody holds it. -/
theorem isFree_iff : shards.isFree shard = true ↔ shard ∉ shards.held := by
  rw [isFree, Bool.not_eq_true', ← Bool.not_eq_true, Std.ExtTreeSet.contains_iff_mem]

/-- With a shard taken, it is held besides those that were before. -/
theorem mem_hold_iff : other ∈ (shards.hold shard).held ↔ other ∈ shards.held ∨ other = shard := by
  change other ∈ shards.held.insert shard ↔ _
  rw [Std.ExtTreeSet.mem_insert, Nat.compare_eq_eq, or_comm, eq_comm]

/-- With a shard given back, the others are still held. -/
theorem mem_free_iff : other ∈ (shards.free shard).held ↔ other ∈ shards.held ∧ other ≠ shard := by
  change other ∈ shards.held.erase shard ↔ _
  rw [Std.ExtTreeSet.mem_erase, Ne, Nat.compare_eq_eq, and_comm, eq_comm]

/-- A shard that was free is free again when it was held for a while. -/
theorem mem_free_hold_iff (h : shards.isFree shard = true) :
    other ∈ ((shards.hold shard).free shard).held ↔ other ∈ shards.held := by
  rw [mem_free_iff, mem_hold_iff]
  refine ⟨fun ⟨hmem, hne⟩ => hmem.resolve_right hne, fun hmem => ⟨Or.inl hmem, ?_⟩⟩
  rintro rfl
  exact isFree_iff.mp h hmem

end LockShards

namespace LockRoom

variable {room : LockRoom} {name : String} {service : LockService} {shards shards' : LockShards} {files : LockFiles}

/-- The shards of a name are those of its service. -/
theorem shards?_of_service (h : room.services[name]? = some service) : room.shards? name = service.shards? := by
  unfold shards?
  rw [h]
  rfl

/-- A service brings its shards under its name, and the others stay. -/
theorem shards?_addService (room : LockRoom) (name : String) (service : LockService) (other : String) :
    (room.addService name service).shards? other = if name = other then service.shards? else room.shards? other := by
  change (room.services.insert name service)[other]?.bind _ = _
  rw [Table.getElem?_insert]
  split <;> rfl

/-- A service with as many shards as the one it replaces gives keys the same shards. -/
theorem shardOf_addService (h : room.shards? name = some shards) (hservice : service.shards? = some shards')
    (hcount : shards'.count = shards.count) (other key : String) :
    (room.addService name service).shardOf other key = room.shardOf other key := by
  unfold shardOf
  rw [shards?_addService, hservice]
  split
  · rename_i hname
    subst hname
    rw [h]
    exact congrArg (some <| Text.SipHash.hashText key % ·) hcount
  · rfl

/-- What is held when the shards of one service have changed. -/
theorem isHeld_addService_iff (h : room.shards? name = some shards) (hservice : service.shards? = some shards')
    {taken : Option (String × Nat)}
    (hheld : ∀ shard : Nat, shard ∈ shards'.held ↔ shard ∈ shards.held ∨ taken = some (name, shard))
    (htaken : ∀ place : String × Nat, taken = some place → place.1 = name) (place : String × Nat) :
    (room.addService name service).IsHeld place ↔ room.IsHeld place ∨ taken = some place := by
  obtain ⟨other, shard⟩ := place
  unfold IsHeld
  rw [shards?_addService, hservice]
  by_cases hname : name = other
  · subst hname
    rw [if_pos rfl, h]
    simp only [Option.some_inj, exists_eq_left', hheld]
  · rw [if_neg hname]
    exact (or_iff_left fun heq => hname (htaken _ heq).symm).symm

/-! ## Requests -/

/-- Nothing was taken in a room that stays what it is. -/
theorem Took.refl (room : LockRoom) : room.Took none room :=
  ⟨rfl, fun _ _ => rfl, fun _ => (or_iff_left nofun).symm, nofun, .refl room.files, nofun⟩

/-- A handle that has nothing took nothing. -/
theorem took_spent (room : LockRoom) {handle : LockHandle} (hshard : handle.shard = none) (hfile : handle.file = none) :
    room.Took (some handle) room := by
  have hplace : (some handle).bind LockHandle.place = none := congrArg (Option.map _) hshard
  refine ⟨rfl, fun _ _ => rfl, fun place => ?_, fun place heq => ?_, ?_, fun other shard heq hsome => ?_⟩
  · rw [hplace]
    exact (or_iff_left nofun).symm
  · rw [hplace] at heq
    cases heq
  · rw [Option.bind_some, hfile]
    exact .refl room.files
  · rw [← Option.some.inj heq, hshard] at hsome
    cases hsome

/-- A request that leaves the shards of its service held as they were takes nothing. -/
theorem took_none (h : room.shards? name = some shards) (hservice : service.shards? = some shards')
    (hcount : shards'.count = shards.count) (hheld : ∀ shard : Nat, shard ∈ shards'.held ↔ shard ∈ shards.held)
    (hfiles : room.files.Gained none files) (nextHolder : Nat) :
    room.Took none ({ room with files, nextHolder }.addService name service) where
  handles := rfl
  shardOf := shardOf_addService h hservice hcount
  held_iff := isHeld_addService_iff h hservice (fun shard => (hheld shard).trans (or_iff_left nofun).symm) nofun
  free := nofun
  files := hfiles
  keyed := nofun

/-- One that holds the shard of the key, and no other, takes that one. -/
theorem took_some {key : String} (h : room.shards? name = some shards) (hfree : shards.isFree (shards.shardOf key) = true)
    (hservice : service.shards? = some (shards.hold (shards.shardOf key))) {file : Option (String × Nat)}
    (hfiles : room.files.Gained file files) (nextHolder : Nat) :
    room.Took (some ⟨name, key, some (shards.shardOf key), file⟩) ({ room with files, nextHolder }.addService name service) where
  handles := rfl
  shardOf := shardOf_addService h hservice rfl
  held_iff := by
    refine isHeld_addService_iff h hservice (fun shard => ?_) fun place heq => congrArg Prod.fst (Option.some.inj heq).symm
    rw [LockShards.mem_hold_iff]
    simp [LockHandle.place, eq_comm]
  free := by
    rintro place heq ⟨shards', hshards, hmem⟩
    obtain rfl := Option.some.inj heq
    obtain rfl := Option.some.inj (h.symm.trans hshards)
    exact LockShards.isFree_iff.mp hfree hmem
  files := hfiles
  keyed := by
    rintro handle shard hhandle hshard
    obtain rfl := Option.some.inj hhandle
    rw [← hshard, LockRoom.shardOf, h]
    rfl

/-- A request for a file takes just what its handle has, or nothing at all. -/
theorem took_acquireFile {file : FileLockService} (hservice : room.services[name]? = some (.file file)) (key : String)
    (patience : Nat) (cancelAt : Option Nat) (faults : Nat → Option FileFault) :
    room.Took (room.acquireFile name key file patience cancelAt faults).1.value?
      (room.acquireFile name key file patience cancelAt faults).2 := by
  have h := shards?_of_service hservice
  unfold acquireFile
  dsimp only
  split
  · exact took_none h rfl rfl (fun _ => .rfl) (.refl room.files) room.nextHolder
  split
  · split <;> exact took_none h rfl rfl (fun _ => .rfl) (.refl room.files) room.nextHolder
  · rename_i hheld
    have hfree : file.shards.isFree (file.shards.shardOf key) = true := by
      rw [Bool.not_eq_true', Bool.not_eq_false] at hheld
      exact hheld
    -- The shard is held through the wait, and free again if that ends without the file.
    generalize hrun : Waiter.run _ _ _ _ _ _ = ended
    obtain ⟨outcome, wait⟩ := ended
    obtain ⟨hshards, hfiles⟩ := fileWaiter_run hrun
    have hfreed : (wait.service.shards.free (file.shards.shardOf key)).count = file.shards.count ∧
        ∀ shard : Nat, shard ∈ (wait.service.shards.free (file.shards.shardOf key)).held ↔ shard ∈ file.shards.held := by
      rw [hshards]
      exact ⟨rfl, fun shard => LockShards.mem_free_hold_iff hfree⟩
    cases outcome with
    | obtained inode =>
      refine took_some h hfree ?_ hfiles _
      exact congrArg some hshards
    | failed | waiting => exact took_none h rfl hfreed.1 hfreed.2 hfiles _

/-- A request takes what the handle says that it hands out, and nothing if it hands out none. -/
theorem took_acquire (room : LockRoom) (name key : String) (patience : Nat) (cancelAt : Option Nat)
    (faults : Nat → Option FileFault) : room.Took (room.acquire name key patience cancelAt faults).1.value?
      (room.acquire name key patience cancelAt faults).2 := by
  unfold acquire
  split
  · exact .refl room
  · exact took_spent room rfl rfl
  · rename_i shards hservice
    dsimp only
    split
    · rename_i hfree
      exact took_some (shards?_of_service hservice) hfree rfl (.refl room.files) room.nextHolder
    · exact .refl room
  · rename_i hservice
    exact took_acquireFile hservice key patience cancelAt faults

end LockRoom

end TileDepot
