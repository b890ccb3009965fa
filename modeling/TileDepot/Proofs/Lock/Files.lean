import TileDepot.Lock.Files
import TileDepot.Proofs.Table

/-!
# What becomes of lock files

What a call does to the files of a directory is known by the names and by the owners of the files: opening a name at most adds
it, locking adds an owner, unlocking and removing a name take one away.
-/

namespace TileDepot.LockFiles

variable {files files' : LockFiles} {path : String} {inode holder : Nat}

/-- A name that is opened stands for a file already, or gets the next one. -/
theorem openPath_cases (h : files.openPath path = .ok (inode, files')) :
    (files.names[path]? = some (.file inode) ∧ files' = files) ∨
      files.names[path]? = none ∧ inode = files.next ∧
        files' = { files with names := files.names.insert path (.file files.next), next := files.next + 1 } := by
  unfold openPath at h
  split at h
  · rename_i hname
    obtain ⟨rfl, rfl⟩ := Prod.mk.inj (Except.ok.inj h)
    exact Or.inl ⟨hname, rfl⟩
  · cases h
  · rename_i hname
    obtain ⟨rfl, rfl⟩ := Prod.mk.inj (Except.ok.inj h)
    exact Or.inr ⟨hname, rfl, rfl⟩

/-- A file that exists is opened as it is. -/
theorem openPath_of_file (h : files.names[path]? = some (.file inode)) : files.openPath path = .ok (inode, files) := by
  unfold openPath
  rw [h]

/-- To open a file gives it to nobody. -/
theorem owners_openPath (h : files.openPath path = .ok (inode, files')) : files'.owners = files.owners := by
  rcases openPath_cases h with ⟨-, rfl⟩ | ⟨-, -, rfl⟩ <;> rfl

/-- A name that has been opened stands for the file. -/
theorem name_openPath (h : files.openPath path = .ok (inode, files')) : files'.names[path]? = some (.file inode) := by
  rcases openPath_cases h with ⟨hname, rfl⟩ | ⟨-, rfl, rfl⟩
  · exact hname
  · exact (Table.getElem?_insert _ _ _ _).trans (if_pos rfl)

/-- What stood for something before still does. -/
theorem names_openPath (h : files.openPath path = .ok (inode, files')) {other : String} {entry : FileEntry}
    (hother : files.names[other]? = some entry) : files'.names[other]? = some entry := by
  rcases openPath_cases h with ⟨-, rfl⟩ | ⟨hname, -, rfl⟩
  · exact hother
  · have hne : path ≠ other := by
      rintro rfl
      rw [hname] at hother
      cases hother
    exact ((Table.getElem?_insert _ _ _ _).trans (if_neg hne)).trans hother

/-- A file can be locked that has no owner. -/
theorem tryLock_none_iff : files.tryLock inode holder none = .ok (some files') ↔
    files.owners[inode]? = none ∧ files' = { files with owners := files.owners.insert inode holder } := by
  change Except.ok _ = _ ↔ _
  rw [Except.ok.injEq, ← Std.ExtTreeMap.isSome_getElem?_eq_contains]
  cases files.owners[inode]? with
  | none => exact ⟨fun h => ⟨rfl, (Option.some.inj h).symm⟩, fun h => congrArg some h.2.symm⟩
  | some owner => exact ⟨nofun, fun h => nomatch h.1⟩

/-- What was locked could have been locked without a fault. -/
theorem tryLock_of_fault {fault : Option FileFault} {answer : Option LockFiles}
    (h : files.tryLock inode holder fault = .ok answer) : files.tryLock inode holder none = .ok answer := by
  unfold tryLock at h
  split at h
  · cases h
  · exact h

/-- A path refers to a file if that is the file of its name. -/
theorem refersTo_iff : files.refersTo path inode = true ↔ files.names[path]? = some (.file inode) := beq_iff_eq

/-- A name goes on standing for the file that was opened when the file is locked at once. -/
theorem refersTo_locked {locked : LockFiles} (hopen : files.openPath path = .ok (inode, files'))
    (hlock : files'.tryLock inode holder none = .ok (some locked)) : locked.refersTo path inode = true := by
  have hname := name_openPath hopen
  obtain ⟨-, rfl⟩ := tryLock_none_iff.mp hlock
  exact refersTo_iff.mpr hname

/-- A file that was locked and given up again is as it was. -/
theorem unlock_locked {locked : LockFiles} (h : files.tryLock inode holder none = .ok (some locked)) :
    locked.unlock inode = files := by
  obtain ⟨hfree, rfl⟩ := tryLock_none_iff.mp h
  have howners : (files.owners.insert inode holder).erase inode = files.owners := by
    refine Std.ExtTreeMap.ext_getElem? fun other => ?_
    rw [Table.getElem?_erase, Table.getElem?_insert]
    split
    · rename_i hsame
      exact hsame ▸ hfree.symm
    · rfl
  exact congrArg (fun owners => ({ files with owners } : LockFiles)) howners

/-- What can come of an attempt: the name is opened, and the file is locked unless it has an owner or something goes wrong; or the
name is not even opened. No name changes between the two, so that the name stands for the file still. -/
theorem attempt_cases {fault : Option FileFault} {taken : Except Error (Option Nat)}
    (h : files.attempt path holder fault = (taken, files')) :
    (∃ error, taken = .error error ∧ files' = files) ∨
      ∃ (inode : Nat) (opened : LockFiles), files.openPath path = .ok (inode, opened) ∧
        ((∀ other, taken ≠ .ok (some other)) ∧ files' = opened ∨
          opened.tryLock inode holder none = .ok (some files') ∧ taken = .ok (some inode)) := by
  unfold attempt at h
  split at h
  · obtain ⟨rfl, rfl⟩ := Prod.mk.inj h
    exact Or.inl ⟨_, rfl, rfl⟩
  split at h
  · obtain ⟨rfl, rfl⟩ := Prod.mk.inj h
    exact Or.inl ⟨_, rfl, rfl⟩
  rename_i inode opened hopen
  refine Or.inr ⟨inode, opened, hopen, ?_⟩
  split at h
  · obtain ⟨rfl, rfl⟩ := Prod.mk.inj h
    exact Or.inl ⟨nofun, rfl⟩
  · obtain ⟨rfl, rfl⟩ := Prod.mk.inj h
    exact Or.inl ⟨nofun, rfl⟩
  rename_i locked hlock
  split at h
  · obtain ⟨rfl, rfl⟩ := Prod.mk.inj h
    exact Or.inr ⟨tryLock_of_fault hlock, rfl⟩
  · obtain ⟨rfl, rfl⟩ := Prod.mk.inj h
    exact Or.inl ⟨nofun, unlock_locked (tryLock_of_fault hlock)⟩

/-- Without a fault an attempt fails only where a directory has the name, and it is in vain only if the file has an owner. -/
theorem attempt_none_cases {taken : Option Nat} (h : files.attempt path holder none = (.ok taken, files')) :
    ∃ (inode : Nat) (opened : LockFiles), files.openPath path = .ok (inode, opened) ∧
      (taken = none ∧ files' = opened ∨
        opened.tryLock inode holder none = .ok (some files') ∧ taken = some inode) := by
  rcases attempt_cases h with ⟨error, herror, -⟩ | ⟨inode, opened, hopen, ⟨hnone, rfl⟩ | ⟨hlock, htaken⟩⟩
  · cases herror
  · refine ⟨inode, files', hopen, Or.inl ⟨?_, rfl⟩⟩
    cases taken with
    | none => rfl
    | some other => exact absurd rfl (hnone other)
  · exact ⟨inode, opened, hopen, Or.inr ⟨hlock, Except.ok.inj htaken⟩⟩

/-- An attempt succeeds where the name is free, and nobody owns the next file. -/
theorem attempt_of_free (hname : files.names[path]? = none) (howner : files.owners[files.next]? = none) :
    files.attempt path holder none = (.ok (some files.next),
      ⟨files.names.insert path (.file files.next), files.owners.insert files.next holder, files.next + 1⟩) := by
  let opened : LockFiles := { files with names := files.names.insert path (.file files.next), next := files.next + 1 }
  have hopen : files.openPath path = .ok (files.next, opened) := by
    unfold openPath
    rw [hname]
  have hlock : opened.tryLock files.next holder none = .ok (some { opened with owners := opened.owners.insert files.next holder }) :=
    tryLock_none_iff.mpr ⟨howner, rfl⟩
  unfold attempt
  rw [hopen]
  dsimp only
  rw [hlock]
  exact if_pos ⟨nofun, refersTo_locked hopen hlock⟩

/-- An attempt on a file that somebody owns is in vain. -/
theorem attempt_of_owned {owner : Nat} (hname : files.names[path]? = some (.file inode))
    (howner : files.owners[inode]? = some owner) (holder : Nat) : files.attempt path holder none = (.ok none, files) := by
  have hlock : files.tryLock inode holder none = .ok none := by
    change Except.ok _ = _
    rw [← Std.ExtTreeMap.isSome_getElem?_eq_contains, howner]
    rfl
  unfold attempt
  rw [openPath_of_file hname]
  dsimp only
  rw [hlock]

/-- What goes wrong as a file is opened is reported by the system. -/
theorem openPath_error {error : Error} (h : files.openPath path = .error error) : ∃ reason, error = .io reason := by
  unfold openPath at h
  split at h
  · cases h
  · exact ⟨_, (Except.error.inj h).symm⟩
  · cases h

/-- What goes wrong as a file is locked is reported by the system. -/
theorem tryLock_error {fault : Option FileFault} {error : Error} (h : files.tryLock inode holder fault = .error error) :
    ∃ reason, error = .io reason := by
  unfold tryLock at h
  split at h
  · exact ⟨_, (Except.error.inj h).symm⟩
  · cases h

/-- An attempt that fails does so because the files cannot be read or written. -/
theorem attempt_error {fault : Option FileFault} {error : Error} (h : files.attempt path holder fault = (.error error, files')) :
    ∃ reason, error = .io reason := by
  unfold attempt at h
  split at h
  · exact ⟨_, (Except.error.inj (Prod.mk.inj h).1).symm⟩
  split at h
  · rename_i hopen
    obtain rfl := Except.error.inj (Prod.mk.inj h).1
    exact openPath_error hopen
  split at h
  · rename_i hlock
    obtain rfl := Except.error.inj (Prod.mk.inj h).1
    exact tryLock_error hlock
  · cases (Prod.mk.inj h).1
  · split at h <;> cases (Prod.mk.inj h).1

/-- A name removed that stands for a file. -/
theorem unlink_of_file (h : files.names[path]? = some (.file inode)) :
    files.unlink path = (true, { files with names := files.names.erase path }) := by
  unfold unlink
  rw [h]

/-- A file given back that its name stands for. -/
theorem release_of_file (h : files.names[path]? = some (.file inode)) :
    files.release path inode = ⟨files.names.erase path, files.owners.erase inode, files.next⟩ := by
  unfold release
  rw [unlink_of_file h]
  rfl

/-- To remove a name takes a file from nobody. -/
theorem owners_unlink (files : LockFiles) (path : String) : (files.unlink path).2.owners = files.owners := by
  unfold unlink
  split <;> rfl

/-- No other name is removed. -/
theorem names_unlink (files : LockFiles) {path other : String} (hne : path ≠ other) :
    (files.unlink path).2.names[other]? = files.names[other]? := by
  unfold unlink
  split
  · exact (Table.getElem?_erase _ _ _).trans (if_neg hne)
  · rfl

end TileDepot.LockFiles
