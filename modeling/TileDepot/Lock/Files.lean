import Std.Data.ExtTreeMap
import TileDepot.Error
import TileDepot.Text.Sha256

/-!
# Lock files

Processes exclude each other by exclusive locks on files of a shared directory. A lock belongs to the file that was opened
and not to its name: who removes the name of a locked file leaves the lock alone, and the next one to open the name gets a
new file with a lock of its own. So a lock counts only if the name still stands for the file that was locked, and whoever
gives a lock back removes the name first.
-/

namespace TileDepot

/-- What a name in the file system stands for. -/
inductive FileEntry where
  /-- A file, known by its number. -/
  | file (inode : Nat)
  | directory
deriving Repr, DecidableEq, Inhabited

/-- What can go wrong with an attempt to lock a file, beside somebody else holding it. -/
inductive FileFault where
  /-- The name cannot be opened. -/
  | opening (reason : String)
  /-- The file cannot be locked. -/
  | locking (reason : String)
  /-- It cannot be seen whether the name still stands for the file. -/
  | looking
deriving Repr, DecidableEq, Inhabited

/-- The names of a file system, and who holds which file. -/
structure LockFiles where
  names : Std.ExtTreeMap String FileEntry
  /-- The holder of each file that is locked. -/
  owners : Std.ExtTreeMap Nat Nat
  /-- The number of the next file. -/
  next : Nat

namespace LockFiles

/-- No files. -/
def empty : LockFiles := ⟨∅, ∅, 0⟩

/-- The directory of the lock files under a root. -/
def directoryOf (root : String) : String := root ++ "/lockfiles"

/-- The name of the lock file of a key. -/
def pathOf (directory key : String) : String :=
  directory ++ "/" ++ Text.Sha256.hexDigest key.toUTF8.toList ++ ".lck"

/-- The file a name stands for, created if there is none. -/
def openPath (files : LockFiles) (path : String) : Except Error (Nat × LockFiles) :=
  match files.names[path]? with
  | some (.file inode) => .ok (inode, files)
  | some .directory => .error (.io "is a directory")
  | none =>
    .ok (files.next, { files with names := files.names.insert path (.file files.next), next := files.next + 1 })

/-- A file locked for a holder, unless somebody holds it. Locking may fail besides. -/
def tryLock (files : LockFiles) (inode holder : Nat) (fault : Option FileFault) : Except Error (Option LockFiles) :=
  match fault with
  | some (.locking reason) => .error (.io reason)
  | _ => .ok (if files.owners.contains inode then none else some { files with owners := files.owners.insert inode holder })

/-- A file that nobody holds any longer. -/
def unlock (files : LockFiles) (inode : Nat) : LockFiles := { files with owners := files.owners.erase inode }

/-- Whether a name stands for a file. -/
def refersTo (files : LockFiles) (path : String) (inode : Nat) : Bool := files.names[path]? == some (.file inode)

/-- A name removed if it stands for a file, and whether it did. -/
def unlink (files : LockFiles) (path : String) : Bool × LockFiles :=
  match files.names[path]? with
  | some (.file _) => (true, { files with names := files.names.erase path })
  | _ => (false, files)

/-- A file under a name, a new one if there is none, and whether there is one now. -/
def touch (files : LockFiles) (path : String) : Bool × LockFiles :=
  match files.openPath path with
  | .ok (_, files) => (true, files)
  | .error _ => (false, files)

/-- A directory under a new name, and whether the name was new. -/
def makeDirectory (files : LockFiles) (path : String) : Bool × LockFiles :=
  if files.names.contains path then (false, files)
  else (true, { files with names := files.names.insert path .directory })

/-- How many names a directory holds. -/
def countIn (files : LockFiles) (directory : String) : Nat :=
  (files.names.keys.filter fun name => (directory ++ "/").toList.isPrefixOf name.toList).length

/-- One attempt to hold the file of a name: the file, or none when somebody else holds it. A name that was opened stays, also
when the attempt fails after that. -/
def attempt (files : LockFiles) (path : String) (holder : Nat) (fault : Option FileFault) :
    Except Error (Option Nat) × LockFiles :=
  match fault with
  | some (.opening reason) => (.error (.io reason), files)
  | _ =>
    match files.openPath path with
    | .error e => (.error e, files)
    | .ok (inode, files) =>
      match files.tryLock inode holder fault with
      | .error e => (.error e, files)
      | .ok none => (.ok none, files)
      | .ok (some locked) =>
        if fault ≠ some .looking ∧ locked.refersTo path inode then (.ok (some inode), locked)
        else (.ok none, locked.unlock inode)

/-- A file given back: its name is removed, then it is unlocked. -/
def release (files : LockFiles) (path : String) (inode : Nat) : LockFiles := (files.unlink path).2.unlock inode

end LockFiles

end TileDepot
