import TileDepot.Proofs.Lock.Waits

/-!
# Handles give back what they took, once

Of a room of locks it is kept through every call that the shards that are held, and the files that are locked, are what the
handles have, and that no two handles have the same. Every call exchanges the handle of one name for another or for none: what
the new one has was free and is taken, and then what the old one had is given back. A handle that has given back what it had
stays in the room with nothing, so that it has nothing to give back later.
-/

namespace TileDepot

/-- A call on a room of locks. -/
inductive LockCall where
  /-- A lock on a key is asked for, and its handle is kept under a name if the lock is obtained. Any attempt may go wrong. -/
  | acquire (service key name : String) (patience : Nat) (cancelAt : Option Nat) (faults : Nat → Option FileFault)
  | release (name : String)
  | drop (name : String)
  /-- The waits of a service are cancelled from now on. -/
  | cancel (service : String)

/-- The name under which a call may keep a new handle. -/
def LockCall.keeps? : LockCall → Option String
  | .acquire _ _ name _ _ _ => some name
  | .release _ | .drop _ | .cancel _ => none

/-- Things of a kind, those that are held, and what each handle has of them: a thing is held just if a handle has it, and no two
handles have the same. -/
structure Exclusive {α : Type} (held : α → Prop) (has : String → Option α) : Prop where
  held_iff : ∀ thing : α, held thing ↔ ∃ name : String, has name = some thing
  apart : ∀ {name other : String} {thing : α}, has name = some thing → has other = some thing → name = other

namespace LockRoom

/-- The room after a call. -/
def perform (room : LockRoom) : LockCall → LockRoom
  | .acquire service key name patience cancelAt faults =>
    match room.acquire service key patience cancelAt faults with
    | (.obtained handle, room) => room.keep name handle
    | (_, room) => room
  | .release name => (room.release name).2
  | .drop name => (room.drop name).2
  | .cancel service => room.cancel service

/-- The room after calls, one after the other. -/
def serve (room : LockRoom) (calls : List LockCall) : LockRoom := calls.foldl perform room

/-- Nobody has taken anything. Files may be left over from earlier. -/
structure IsUnused (room : LockRoom) : Prop where
  handles : room.handles = ∅
  owners : room.files.owners = ∅
  free : ∀ place : String × Nat, ¬room.IsHeld place

/-- What the handle of a name has of the shards. -/
def placeOf (room : LockRoom) (name : String) : Option (String × Nat) := room.handles[name]?.bind LockHandle.place

/-- The lock file that the handle of a name has, and its name. -/
def fileOf (room : LockRoom) (name : String) : Option (String × Nat) := room.handles[name]?.bind LockHandle.file

/-- What is held and locked is what the handles have. -/
structure Accounted (room : LockRoom) : Prop where
  places : Exclusive room.IsHeld room.placeOf
  inodes : Exclusive (· ∈ room.files.owners) fun name => (room.fileOf name).map Prod.snd
  /-- The name of a lock file that a handle has stands for it. -/
  named : ∀ {name path : String} {inode : Nat}, room.fileOf name = some (path, inode) →
    room.files.names[path]? = some (.file inode)
  /-- The shard that a handle has is the one of its key. -/
  keyed : ∀ {name : String} {handle : LockHandle} {shard : Nat}, room.handles[name]? = some handle →
    handle.shard = some shard → room.shardOf handle.service handle.key = some shard

/-- What is held and locked is what the handles have, and no shard of a service, key of a service or lock file is had by two. -/
structure TakenOnce (room : LockRoom) : Prop where
  held_iff : ∀ place : String × Nat, room.IsHeld place ↔ ∃ name : String, room.placeOf name = some place
  locked_iff : ∀ inode : Nat, inode ∈ room.files.owners ↔ ∃ name path : String, room.fileOf name = some (path, inode)
  shard_once : ∀ {name other : String} {place : String × Nat}, room.placeOf name = some place →
    room.placeOf other = some place → name = other
  key_once : ∀ {name other : String} {handle handle' : LockHandle}, room.handles[name]? = some handle →
    room.handles[other]? = some handle' → handle.shard.isSome → handle'.shard.isSome → handle.service = handle'.service →
    handle.key = handle'.key → name = other
  file_once : ∀ {name other path path' : String} {inode inode' : Nat}, room.fileOf name = some (path, inode) →
    room.fileOf other = some (path', inode') → path = path' ∨ inode = inode' → name = other

/-- What a room has become when just what a handle has was given back, or nothing at all. -/
structure Gave (room : LockRoom) (given : Option LockHandle) (room' : LockRoom) : Prop where
  shardOf : ∀ name key : String, room'.shardOf name key = room.shardOf name key
  held_iff : ∀ place : String × Nat, room'.IsHeld place ↔ room.IsHeld place ∧ given.bind LockHandle.place ≠ some place
  owners : ∀ inode : Nat, room'.files.owners[inode]? =
    if (given.bind LockHandle.file).map Prod.snd = some inode then none else room.files.owners[inode]?
  names : ∀ {path : String} {entry : FileEntry}, (∀ inode : Nat, given.bind LockHandle.file ≠ some (path, inode)) →
    room.files.names[path]? = some entry → room'.files.names[path]? = some entry

/-- The handle of a name has nothing, if there is one. -/
def IsSpent (room : LockRoom) (name : String) : Prop :=
  ∀ handle : LockHandle, room.handles[name]? = some handle → handle.shard = none ∧ handle.file = none

end LockRoom

/-- The thing of one handle exchanged for another one, which was free. -/
theorem Exclusive.exchange {α : Type} {held held' : α → Prop} {has has' : String → Option α} (h : Exclusive held has)
    {name : String} {taken : Option α}
    (hheld : ∀ thing : α, held' thing ↔ (held thing ∨ taken = some thing) ∧ has name ≠ some thing)
    (hfree : ∀ thing : α, taken = some thing → ¬held thing)
    (hhas : ∀ other : String, has' other = if name = other then taken else has other) : Exclusive held' has' := by
  have hself : has' name = taken := (hhas name).trans (if_pos rfl)
  have hother : ∀ {other : String}, name ≠ other → has' other = has other := fun hne => (hhas _).trans (if_neg hne)
  -- Nobody had what was taken.
  have hnew : ∀ {other : String} {thing : α}, taken = some thing → has other ≠ some thing :=
    fun htaken heq => hfree _ htaken ((h.held_iff _).mpr ⟨_, heq⟩)
  refine ⟨fun thing => ?_, fun {one other thing} hone hthing => ?_⟩
  · rw [hheld, h.held_iff]
    constructor
    · rintro ⟨⟨other, heq⟩ | htaken, hgiven⟩
      · have hne : name ≠ other := fun hname => hgiven (hname ▸ heq)
        exact ⟨other, (hother hne).trans heq⟩
      · exact ⟨name, hself.trans htaken⟩
    · rintro ⟨other, heq⟩
      by_cases hname : name = other
      · have htaken := hself.symm.trans (hname ▸ heq)
        exact ⟨Or.inr htaken, hnew htaken⟩
      · rw [hother hname] at heq
        exact ⟨Or.inl ⟨other, heq⟩, fun hgiven => hname (h.apart hgiven heq)⟩
  · by_cases hname : name = one <;> by_cases hname' : name = other
    · exact hname.symm.trans hname'
    · rw [← hname, hself] at hone
      rw [hother hname'] at hthing
      exact absurd hthing (hnew hone)
    · rw [← hname', hself] at hthing
      rw [hother hname] at hone
      exact absurd hone (hnew hthing)
    · rw [hother hname] at hone
      rw [hother hname'] at hthing
      exact h.apart hone hthing

namespace LockRoom

variable {room took room' : LockRoom} {name : String} {handle : LockHandle} {taken given : Option LockHandle}

/-! ## Giving back -/

/-- The shards of a service are changed, if it has any. -/
theorem shards?_mapShards (change : LockShards → LockShards) (service : LockService) :
    (mapShards change service).shards? = service.shards?.map change := by
  cases service <;> rfl

/-- The shards of the services when a handle on a shard was given back. -/
theorem shards?_giveBack {shard : Nat} (h : handle.shard = some shard) (other : String) : (room.giveBack handle).shards? other =
    if handle.service = other then (room.shards? other).map (·.free shard) else room.shards? other := by
  unfold giveBack
  rw [h]
  cases hservice : room.services[handle.service]? with
  | none =>
    have hnone : room.shards? handle.service = none := by
      unfold shards?
      rw [hservice]
      rfl
    change room.shards? other = _
    by_cases hname : handle.service = other
    · rw [← hname, hnone, if_pos rfl]
      rfl
    · exact (if_neg hname).symm
  | some service =>
    refine (shards?_addService room handle.service (mapShards (·.free shard) service) other).trans ?_
    split
    · rename_i hname
      rw [shards?_mapShards, shards?_of_service (hname ▸ hservice)]
    · rfl

/-- When a handle is given back, just its own place is no longer held. -/
theorem isHeld_giveBack_iff (place : String × Nat) :
    (room.giveBack handle).IsHeld place ↔ room.IsHeld place ∧ handle.place ≠ some place := by
  cases hshard : handle.shard with
  | none =>
    have hplace : handle.place = none := congrArg (Option.map _) hshard
    have hservices : (room.giveBack handle).services = room.services := by
      unfold giveBack
      rw [hshard]
    unfold IsHeld shards?
    rw [hservices, hplace]
    exact (and_iff_left nofun).symm
  | some shard =>
    have hplace : handle.place = some (handle.service, shard) := congrArg (Option.map _) hshard
    obtain ⟨other, shard'⟩ := place
    unfold IsHeld
    rw [shards?_giveBack hshard, hplace]
    by_cases hname : handle.service = other
    · subst hname
      cases hshards : room.shards? handle.service with
      | none => simp
      | some shards => simp [LockShards.mem_free_iff, eq_comm]
    · rw [if_neg hname]
      exact (and_iff_left fun heq => hname (congrArg Prod.fst (Option.some.inj heq))).symm

/-- A key has the same shard after a handle was given back. -/
theorem shardOf_giveBack (name key : String) : (room.giveBack handle).shardOf name key = room.shardOf name key := by
  cases hshard : handle.shard with
  | none =>
    unfold giveBack
    rw [hshard]
    rfl
  | some shard =>
    unfold shardOf
    rw [shards?_giveBack hshard]
    split
    · rw [Option.map_map]
      rfl
    · rfl

/-- A room to which nothing is given back stays what it is. -/
theorem gave_none (room : LockRoom) : room.Gave none room :=
  ⟨fun _ _ => rfl, fun _ => (and_iff_left nofun).symm, fun _ => rfl, fun _ hname => hname⟩

/-- A handle without a file gives no file back. -/
theorem files_giveBack_of_none {handle : LockHandle} (h : handle.file = none) : (room.giveBack handle).files = room.files := by
  unfold giveBack
  rw [h]

/-- A handle with a file releases it. -/
theorem files_giveBack_of_some {handle : LockHandle} {path : String} {inode : Nat} (h : handle.file = some (path, inode)) :
    (room.giveBack handle).files = room.files.release path inode := by
  unfold giveBack
  rw [h]

/-- A handle gives back what it has, and nothing else. -/
theorem gave_giveBack (room : LockRoom) (handle : LockHandle) : room.Gave (some handle) (room.giveBack handle) := by
  cases hfile : handle.file with
  | none =>
    have hfiles : (room.giveBack handle).files = room.files := files_giveBack_of_none hfile
    refine ⟨shardOf_giveBack, isHeld_giveBack_iff, ?_, ?_⟩
    · rw [Option.bind_some, hfile, hfiles]
      exact fun _ => rfl
    · intro path entry _ hname
      rwa [hfiles]
  | some file =>
    obtain ⟨path, inode⟩ := file
    have hfiles : (room.giveBack handle).files = room.files.release path inode := files_giveBack_of_some hfile
    refine ⟨shardOf_giveBack, isHeld_giveBack_iff, fun other => ?_, fun {name entry} hne hname => ?_⟩
    · rw [Option.bind_some, hfile, hfiles]
      change ((room.files.unlink path).2.owners.erase inode)[other]? = _
      rw [Table.getElem?_erase, LockFiles.owners_unlink]
      simp only [Option.map_some, Option.some_inj]
    · rw [hfiles]
      have hapart : path ≠ name := by
        rintro rfl
        exact hne inode hfile
      exact (LockFiles.names_unlink room.files hapart).trans hname

/-- When a handle is given back, just its own file is no longer owned. -/
theorem Gave.mem_owners_iff (h : room.Gave given room') {inode : Nat} :
    inode ∈ room'.files.owners ↔ inode ∈ room.files.owners ∧ (given.bind LockHandle.file).map Prod.snd ≠ some inode := by
  rw [Std.ExtTreeMap.mem_iff_isSome_getElem?, Std.ExtTreeMap.mem_iff_isSome_getElem?, h.owners]
  split
  · rename_i hfile
    exact ⟨nofun, fun hmem => absurd hfile hmem.2⟩
  · rename_i hfile
    exact (and_iff_left hfile).symm

/-! ## One call -/

/-- A file that was locked for a new handle had no owner, so that no handle had it. -/
theorem Accounted.fileOf_ne_of_took (h : room.Accounted) (htook : room.Took taken took) {other path path' : String}
    {inode : Nat} (hfile : taken.bind LockHandle.file = some (path, inode)) : room.fileOf other ≠ some (path', inode) := by
  intro heq
  have hmem := (h.inodes.held_iff inode).mpr ⟨other, congrArg (Option.map Prod.snd) heq⟩
  rw [Std.ExtTreeMap.mem_iff_isSome_getElem?, htook.files.unlocked inode (congrArg (Option.map Prod.snd) hfile)] at hmem
  cases hmem

/-- The name of a lock file goes only with the file of the handle that gives it back: of two handles with the same name, the two
files are the same. -/
theorem Accounted.name_kept (h : room.Accounted) (htook : room.Took taken took) (hgave : took.Gave room.handles[name]? room')
    {path : String} {inode : Nat} (hname : took.files.names[path]? = some (.file inode))
    (hne : room.fileOf name ≠ some (path, inode)) : room'.files.names[path]? = some (.file inode) := by
  refine hgave.names (fun inode' heq => ?_) hname
  have hname' := htook.files.names (h.named heq)
  obtain rfl := FileEntry.file.inj (Option.some.inj (hname'.symm.trans hname))
  exact hne heq

/-- What a handle has exchanged for what was free. -/
theorem Accounted.exchange (h : room.Accounted) (htook : room.Took taken took) (hgave : took.Gave room.handles[name]? room')
    (hhandles : ∀ other : String, room'.handles[other]? = if name = other then taken else room.handles[other]?) :
    room'.Accounted := by
  have hplaces : ∀ other : String,
      room'.placeOf other = if name = other then taken.bind LockHandle.place else room.placeOf other := by
    intro other
    rw [placeOf, hhandles]
    split <;> rfl
  have hfiles : ∀ other : String,
      room'.fileOf other = if name = other then taken.bind LockHandle.file else room.fileOf other := by
    intro other
    rw [fileOf, hhandles]
    split <;> rfl
  have hinodes : ∀ other : String, (room'.fileOf other).map Prod.snd =
      if name = other then (taken.bind LockHandle.file).map Prod.snd else (room.fileOf other).map Prod.snd := by
    intro other
    rw [hfiles]
    split <;> rfl
  refine ⟨h.places.exchange (fun place => ?_) htook.free hplaces, h.inodes.exchange (fun inode => ?_) ?_ hinodes,
    fun {other path inode} hfile => ?_, fun {other handle shard} hhandle hshard => ?_⟩
  · rw [hgave.held_iff, htook.held_iff]
    rfl
  · rw [hgave.mem_owners_iff, htook.files.mem_owners_iff]
    rfl
  · intro inode heq
    rw [Std.ExtTreeMap.mem_iff_isSome_getElem?, htook.files.unlocked inode heq]
    exact Bool.false_ne_true
  · rw [hfiles] at hfile
    split at hfile
    · exact h.name_kept htook hgave (htook.files.named path inode hfile) (h.fileOf_ne_of_took htook hfile)
    · rename_i hne
      refine h.name_kept htook hgave (htook.files.names (h.named hfile)) fun heq => hne ?_
      exact h.inodes.apart (congrArg (Option.map Prod.snd) heq) (congrArg (Option.map Prod.snd) hfile)
  · rw [hgave.shardOf, htook.shardOf]
    rw [hhandles] at hhandle
    split at hhandle
    · exact htook.keyed handle shard hhandle hshard
    · exact h.keyed hhandle hshard

/-- A request that hands out nothing leaves the account as it is. -/
theorem Accounted.of_took_none (h : room.Accounted) (htook : room.Took none room') : room'.Accounted := by
  have hplaces : room'.placeOf = room.placeOf := by
    unfold placeOf
    rw [htook.handles]
  have hfiles : room'.fileOf = room.fileOf := by
    unfold fileOf
    rw [htook.handles]
  refine ⟨⟨fun place => ?_, hplaces ▸ h.places.apart⟩, ⟨fun inode => ?_, hfiles ▸ h.inodes.apart⟩, fun hfile => ?_,
    fun {other handle shard} hhandle hshard => ?_⟩
  · rw [htook.held_iff, hplaces]
    exact (or_iff_left nofun).trans (h.places.held_iff place)
  · rw [htook.files.owners_eq, hfiles]
    exact h.inodes.held_iff inode
  · exact htook.files.names (h.named (hfiles ▸ hfile))
  · rw [htook.shardOf]
    exact h.keyed (htook.handles ▸ hhandle) hshard

/-- To release gives back what the handle of the name has. -/
theorem gave_release (room : LockRoom) (name : String) : room.Gave room.handles[name]? (room.release name).2 := by
  unfold release
  cases hhandle : room.handles[name]? with
  | none => exact gave_none room
  | some handle =>
    have h := gave_giveBack room handle
    exact ⟨h.shardOf, h.held_iff, h.owners, h.names⟩

/-- To drop gives back what the handle of the name has. -/
theorem gave_drop (room : LockRoom) (name : String) : room.Gave room.handles[name]? (room.drop name).2 :=
  have h := gave_release room name
  ⟨h.shardOf, h.held_iff, h.owners, h.names⟩

/-- To keep another handle under a name gives back what the old one has. -/
theorem gave_keep (room : LockRoom) (name : String) (handle : LockHandle) :
    room.Gave room.handles[name]? (room.keep name handle) :=
  have h := gave_drop room name
  ⟨h.shardOf, h.held_iff, h.owners, h.names⟩

/-- A handle that was released stays in the room with nothing. -/
theorem handles_release (room : LockRoom) (name other : String) : (room.release name).2.handles[other]? =
    if name = other then room.handles[name]?.map fun handle => { handle with shard := none, file := none }
    else room.handles[other]? := by
  unfold release
  cases hhandle : room.handles[name]? with
  | none =>
    by_cases hname : name = other
    · rw [if_pos hname, ← hname]
      exact hhandle
    · exact (if_neg hname).symm
  | some handle => exact Table.getElem?_insert _ _ _ _

/-- The handle that is dropped is gone, and the others stay. -/
theorem handles_drop (room : LockRoom) (name other : String) :
    (room.drop name).2.handles[other]? = if name = other then none else room.handles[other]? := by
  change ((room.release name).2.handles.erase name)[other]? = _
  rw [Table.getElem?_erase, handles_release]
  split <;> rfl

/-- A handle is kept under its name, and the others stay. -/
theorem handles_keep (room : LockRoom) (name : String) (handle : LockHandle) (other : String) :
    (room.keep name handle).handles[other]? = if name = other then some handle else room.handles[other]? := by
  change ((room.drop name).2.handles.insert name handle)[other]? = _
  rw [Table.getElem?_insert, handles_drop]
  split <;> rfl

/-- To cancel a service takes nothing. -/
theorem took_cancel (room : LockRoom) (name : String) : room.Took none (room.cancel name) := by
  unfold cancel
  split
  · rename_i hservice
    exact took_none (shards?_of_service hservice) rfl rfl (fun _ => .rfl) (.refl room.files) room.nextHolder
  · exact .refl room

/-- What a request comes to: the handle that is handed out is kept, and if there is none, nothing was taken. -/
theorem perform_acquire_cases (room : LockRoom) (service key name : String) (patience : Nat) (cancelAt : Option Nat)
    (faults : Nat → Option FileFault) :
    (∃ (handle : LockHandle) (took : LockRoom), room.Took (some handle) took ∧
        room.perform (.acquire service key name patience cancelAt faults) = took.keep name handle) ∨
      room.Took none (room.perform (.acquire service key name patience cancelAt faults)) := by
  have htook := took_acquire room service key patience cancelAt faults
  dsimp only [perform]
  generalize room.acquire service key patience cancelAt faults = answer at htook ⊢
  obtain ⟨outcome, took⟩ := answer
  cases outcome with
  | obtained handle => exact Or.inl ⟨handle, took, htook, rfl⟩
  | failed | waiting => exact Or.inr htook

/-- A room stays accounted for with every call. -/
theorem Accounted.perform (h : room.Accounted) (call : LockCall) : (room.perform call).Accounted := by
  cases call with
  | acquire service key name patience cancelAt faults =>
    rcases room.perform_acquire_cases service key name patience cancelAt faults with ⟨handle, took, htook, heq⟩ | htook
    · rw [heq]
      have hgave := gave_keep took name handle
      have hhandles := handles_keep took name handle
      rw [htook.handles] at hgave hhandles
      exact h.exchange htook hgave hhandles
    · exact h.of_took_none htook
  | release name =>
    refine h.exchange ?_ (gave_release room name) (handles_release room name)
    cases room.handles[name]? with
    | none => exact .refl room
    | some handle => exact took_spent room rfl rfl
  | drop name => exact h.exchange (.refl room) (gave_drop room name) (handles_drop room name)
  | cancel service => exact h.of_took_none (took_cancel room service)

/-- A room stays accounted for with all calls. -/
theorem Accounted.serve (h : room.Accounted) (calls : List LockCall) : (room.serve calls).Accounted :=
  List.foldlRecOn (motive := Accounted) calls LockRoom.perform h fun _ hbefore call _ => hbefore.perform call

/-- An empty room is unused. -/
theorem isUnused_empty : empty.IsUnused := by
  refine ⟨rfl, rfl, ?_⟩
  rintro ⟨name, shard⟩ ⟨shards, hshards, -⟩
  cases hshards

/-- A room stays unused as services of which no shard is held come in. -/
theorem IsUnused.addService (h : room.IsUnused) (name : String) {service : LockService}
    (hservice : ∀ shards : LockShards, service.shards? = some shards → shards.held = ∅) :
    (room.addService name service).IsUnused := by
  refine ⟨h.handles, h.owners, ?_⟩
  rintro ⟨other, shard⟩ ⟨shards, hshards, hmem⟩
  rw [shards?_addService] at hshards
  split at hshards
  · rw [hservice shards hshards] at hmem
    exact Std.ExtTreeSet.not_mem_empty hmem
  · exact h.free (other, shard) ⟨shards, hshards, hmem⟩

/-- An unused room is accounted for. -/
theorem IsUnused.accounted (h : room.IsUnused) : room.Accounted := by
  have hplace : ∀ name : String, room.placeOf name = none := by
    intro name
    rw [placeOf, h.handles, Std.ExtTreeMap.getElem?_empty]
    rfl
  have hfile : ∀ name : String, room.fileOf name = none := by
    intro name
    rw [fileOf, h.handles, Std.ExtTreeMap.getElem?_empty]
    rfl
  refine ⟨⟨fun place => ?_, fun hplace' => ?_⟩, ⟨fun inode => ?_, fun hfile' => ?_⟩, fun hfile' => ?_, fun hhandle => ?_⟩
  · simp only [hplace, h.free, reduceCtorEq, exists_false]
  · rw [hplace] at hplace'
    cases hplace'
  · simp only [h.owners, hfile, Std.ExtTreeMap.not_mem_empty, Option.map_none, reduceCtorEq, exists_false]
  · rw [hfile] at hfile'
    cases hfile'
  · rw [hfile] at hfile'
    cases hfile'
  · rw [h.handles, Std.ExtTreeMap.getElem?_empty] at hhandle
    cases hhandle

/-! ## Handles that have nothing -/

/-- A handle that has nothing has nothing after any call that does not keep another one under its name. -/
theorem IsSpent.perform (h : room.IsSpent name) {call : LockCall} (hcall : call.keeps? ≠ some name) :
    (room.perform call).IsSpent name := by
  cases call with
  | acquire service key other patience cancelAt faults =>
    have hne : other ≠ name := fun heq => hcall (congrArg some heq)
    rcases room.perform_acquire_cases service key other patience cancelAt faults with ⟨handle, took, htook, heq⟩ | htook
    · intro handle' hhandle
      rw [heq, handles_keep, if_neg hne, htook.handles] at hhandle
      exact h handle' hhandle
    · intro handle' hhandle
      exact h handle' (htook.handles ▸ hhandle)
  | release other =>
    intro handle hhandle
    change (room.release other).2.handles[name]? = _ at hhandle
    rw [handles_release] at hhandle
    split at hhandle
    · obtain ⟨handle', -, rfl⟩ := Option.map_eq_some_iff.mp hhandle
      exact ⟨rfl, rfl⟩
    · exact h handle hhandle
  | drop other =>
    intro handle hhandle
    change (room.drop other).2.handles[name]? = _ at hhandle
    rw [handles_drop] at hhandle
    split at hhandle
    · cases hhandle
    · exact h handle hhandle
  | cancel service =>
    intro handle hhandle
    exact h handle ((took_cancel room service).handles ▸ hhandle)

/-- The same of any number of such calls. -/
theorem IsSpent.serve (h : room.IsSpent name) {calls : List LockCall} (hcalls : ∀ call ∈ calls, call.keeps? ≠ some name) :
    (room.serve calls).IsSpent name :=
  List.foldlRecOn (motive := (IsSpent · name)) calls LockRoom.perform h fun _ hbefore call hcall => hbefore.perform (hcalls call hcall)

/-- A handle that was released has nothing. -/
theorem isSpent_release (room : LockRoom) (name : String) : (room.release name).2.IsSpent name := by
  intro handle hhandle
  rw [handles_release, if_pos rfl] at hhandle
  obtain ⟨handle', -, rfl⟩ := Option.map_eq_some_iff.mp hhandle
  exact ⟨rfl, rfl⟩

/-- A handle that was dropped has nothing. -/
theorem isSpent_drop (room : LockRoom) (name : String) : (room.drop name).2.IsSpent name := by
  intro handle hhandle
  rw [handles_drop, if_pos rfl] at hhandle
  cases hhandle

/-- A handle that has nothing gives back nothing. -/
theorem IsSpent.release_eq (h : room.IsSpent name) : (room.release name).2 = room := by
  unfold release
  cases hhandle : room.handles[name]? with
  | none => rfl
  | some handle =>
    obtain ⟨hshard, hfile⟩ := h handle hhandle
    have hgiven : room.giveBack handle = room := by
      unfold giveBack
      rw [hshard, hfile]
    have hspent : { handle with shard := none, file := none } = handle := by
      rw [← hshard, ← hfile]
    have hhandles : room.handles.insert name handle = room.handles := by
      refine Std.ExtTreeMap.ext_getElem? fun other => ?_
      rw [Table.getElem?_insert]
      split
      · rename_i hname
        exact hname ▸ hhandle.symm
      · rfl
    dsimp only
    rw [hgiven, hspent, hhandles]

/-- To drop a handle that has nothing changes nothing but its name. -/
theorem IsSpent.drop_eq (h : room.IsSpent name) : (room.drop name).2 = { room with handles := room.handles.erase name } :=
  congrArg (fun room : LockRoom => { room with handles := room.handles.erase name }) h.release_eq

/-! ## Any number of calls -/

/-- In a room that is accounted for nothing was taken twice. -/
theorem Accounted.takenOnce (h : room.Accounted) : room.TakenOnce := by
  have hinode : ∀ {name path : String} {inode : Nat}, room.fileOf name = some (path, inode) →
      (room.fileOf name).map Prod.snd = some inode := fun hfile => congrArg (Option.map Prod.snd) hfile
  refine ⟨h.places.held_iff, fun inode => (h.inodes.held_iff inode).trans ?_, h.places.apart, ?_, ?_⟩
  · simp only [Option.map_eq_some_iff, Prod.exists, exists_eq_right]
  · intro name other handle handle' hhandle hhandle' hsome hsome' hservice hkey
    obtain ⟨shard, hshard⟩ := Option.isSome_iff_exists.mp hsome
    obtain ⟨shard', hshard'⟩ := Option.isSome_iff_exists.mp hsome'
    -- A service has one shard for a key.
    have hone := h.keyed hhandle hshard
    rw [hservice, hkey] at hone
    obtain rfl := Option.some.inj (hone.symm.trans (h.keyed hhandle' hshard'))
    have hplace : room.placeOf name = some (handle'.service, shard) := by
      rw [placeOf, hhandle, ← hservice]
      exact congrArg (Option.map _) hshard
    have hplace' : room.placeOf other = some (handle'.service, shard) := by
      rw [placeOf, hhandle']
      exact congrArg (Option.map _) hshard'
    exact h.places.apart hplace hplace'
  · rintro name other path path' inode inode' hfile hfile' (rfl | rfl)
    · obtain rfl := FileEntry.file.inj (Option.some.inj ((h.named hfile).symm.trans (h.named hfile')))
      exact h.inodes.apart (hinode hfile) (hinode hfile')
    · exact h.inodes.apart (hinode hfile) (hinode hfile')

/-- Whatever calls a room of locks has served that nobody had taken anything from: what is held and locked is what the handles
have, and no two have the same. A handle that is released or dropped gives back what it has, and nothing else; and however the
calls go on, as long as they keep no new handle under its name, giving it back once more changes nothing. A request that hands
out no handle has taken nothing, whatever went wrong with it. -/
theorem handles_give_back_once (room : LockRoom) (hroom : room.IsUnused) (calls : List LockCall) :
    let now := room.serve calls
    now.TakenOnce ∧
    (∀ (name : String) (handle : LockHandle) (first : LockCall), now.handles[name]? = some handle →
      first = .release name ∨ first = .drop name →
      let given := now.perform first
      now.Gave (some handle) given ∧ (∀ other : String, other ≠ name → given.handles[other]? = now.handles[other]?) ∧
        ∀ later : List LockCall, (∀ call ∈ later, call.keeps? ≠ some name) →
          let after := given.serve later
          after.perform (.release name) = after ∧
            after.perform (.drop name) = { after with handles := after.handles.erase name }) ∧
    ∀ (service key : String) (patience : Nat) (cancelAt : Option Nat) (faults : Nat → Option FileFault),
      (∀ handle : LockHandle, (now.acquire service key patience cancelAt faults).1 ≠ .obtained handle) →
      let after := (now.acquire service key patience cancelAt faults).2
      (∀ place : String × Nat, after.IsHeld place ↔ now.IsHeld place) ∧ after.files.owners = now.files.owners ∧
        after.handles = now.handles := by
  intro now
  have hnow : now.Accounted := hroom.accounted.serve calls
  refine ⟨hnow.takenOnce, fun name handle first hhandle hfirst => ?_, fun service key patience cancelAt faults hnone => ?_⟩
  · have hspent : (now.perform first).IsSpent name := by
      rcases hfirst with rfl | rfl
      · exact now.isSpent_release name
      · exact now.isSpent_drop name
    refine ⟨?_, fun other hne => ?_, fun later hlater => ⟨(hspent.serve hlater).release_eq, (hspent.serve hlater).drop_eq⟩⟩
    · rcases hfirst with rfl | rfl
      · exact hhandle ▸ now.gave_release name
      · exact hhandle ▸ now.gave_drop name
    · rcases hfirst with rfl | rfl
      · exact (now.handles_release name other).trans (if_neg hne.symm)
      · exact (now.handles_drop name other).trans (if_neg hne.symm)
  · have htook := now.took_acquire service key patience cancelAt faults
    have hvalue : (now.acquire service key patience cancelAt faults).1.value? = none := by
      cases houtcome : (now.acquire service key patience cancelAt faults).1 with
      | obtained handle => exact absurd houtcome (hnone handle)
      | failed | waiting => rfl
    rw [hvalue] at htook
    exact ⟨fun place => (htook.held_iff place).trans (or_iff_left nofun), htook.files.owners_eq, htook.handles⟩

/-- When the first one to lock a file releases its handle again, the second one has the file still. A request in between whose lock
call fails leaves the shard free and no file locked, though the file that it has made is there. -/
theorem second_handle_undisturbed :
    let room := (empty.addService "memory" (.sharded ⟨1, by decide, ∅⟩)).addService "files"
      (.file ⟨"tiles/lockfiles", ⟨1, by decide, ∅⟩, 10, 1000, 0, 0, false⟩)
    let sound := fun _ : Nat => (none : Option FileFault)
    let broken := fun attempt : Nat => if attempt = 0 then some (FileFault.locking "no locks available") else none
    let now := room.serve [.acquire "files" "page" "first" 0 none sound]
    let after := (now.perform (.release "first")).serve [.acquire "files" "page" "second" 0 none sound]
    (now.fileOf "first").isSome ∧ (after.fileOf "second").isSome ∧ after.perform (.release "first") = after ∧
      let failed := room.acquire "files" "page" 0 none broken
      failed.1 = .failed (.io "no locks available") ∧ failed.2.files.names.size = 1 ∧ failed.2.files.owners = room.files.owners ∧
        ∀ place : String × Nat, ¬failed.2.IsHeld place := by
  intro room sound broken now after
  have hroom : room.IsUnused := by
    refine (isUnused_empty.addService "memory" fun shards heq => ?_).addService "files" fun shards heq => ?_
    · exact Option.some.inj heq ▸ rfl
    · exact Option.some.inj heq ▸ rfl
  have hfirst : now.handles["first"]?.isSome := by decide +kernel
  obtain ⟨handle, hhandle⟩ := Option.isSome_iff_exists.mp hfirst
  have hgives := (handles_give_back_once room hroom [.acquire "files" "page" "first" 0 none sound]).2.1 "first" handle
    (.release "first") hhandle (Or.inl rfl)
  have hlater : ∀ call ∈ [LockCall.acquire "files" "page" "second" 0 none sound], call.keeps? ≠ some "first" := by decide
  refine ⟨by decide +kernel, by decide +kernel, (hgives.2.2 _ hlater).1, ?_⟩
  intro failed
  have hfailed : failed.1 = .failed (.io "no locks available") := by decide +kernel
  have hnothing := (handles_give_back_once room hroom []).2.2 "files" "page" 0 none broken
    fun handle heq => nomatch hfailed.symm.trans heq
  exact ⟨hfailed, by decide +kernel, hnothing.2.1, fun place hheld => hroom.free place ((hnothing.1 place).mp hheld)⟩

end LockRoom

end TileDepot
