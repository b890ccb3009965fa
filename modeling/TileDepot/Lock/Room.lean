import TileDepot.Lock.Files
import TileDepot.Lock.Shards
import TileDepot.Lock.Wait

/-!
# Lock services and handles

Three services hand out locks: one that excludes nobody, one that holds a shard of its own, and one that holds a shard and
then a lock file, so that it excludes other processes too. A handle gives back exactly what it took, at its first release
or when it is dropped.
-/

namespace TileDepot

/-- A service that holds a shard and then a lock file. Times are in milliseconds. -/
structure FileLockService where
  directory : String
  shards : LockShards
  /-- The pause between two attempts. -/
  backoff : Nat
  timeout : Nat
  /-- What the clock shows next. -/
  clock : Int
  /-- By how much the clock advances with each reading. -/
  clockStep : Int
  cancelled : Bool

/-- A service that hands out locks. -/
inductive LockService where
  /-- Everybody obtains every lock. -/
  | unguarded
  | sharded (shards : LockShards)
  | file (service : FileLockService)

/-- What a handle took and has not given back. -/
structure LockHandle where
  service : String
  key : String
  shard : Option Nat
  /-- The lock file and its name. -/
  file : Option (String × Nat)
deriving Repr, DecidableEq, Inhabited

/-- Services by name, handles by name, and the files that the services share. -/
structure LockRoom where
  files : LockFiles
  services : Std.ExtTreeMap String LockService
  handles : Std.ExtTreeMap String LockHandle
  /-- The number of the next holder of a file. -/
  nextHolder : Nat

namespace FileLockService

/-- The service of a root directory. The pause must be positive and there must be a shard. -/
def make (root : String) (shardCount backoff timeout : Nat) (clock clockStep : Int) : Except Error FileLockService :=
  if backoff = 0 then .error (.config "lock retry backoff must be positive")
  else do return ⟨LockFiles.directoryOf root, ← LockShards.ofCount shardCount, backoff, timeout, clock, clockStep, false⟩

/-- The name of the lock file of a key. -/
def pathOf (service : FileLockService) (key : String) : String := LockFiles.pathOf service.directory key

/-- A reading of the clock. -/
def readClock (service : FileLockService) : Int × FileLockService :=
  (service.clock, { service with clock := service.clock + service.clockStep })

end FileLockService

namespace LockRoom

/-- A room without services and handles. -/
def empty : LockRoom := ⟨.empty, ∅, ∅, 0⟩

/-- The room with a service. -/
def addService (room : LockRoom) (name : String) (service : LockService) : LockRoom :=
  { room with services := room.services.insert name service }

/-- The service with one of its shards held or free. -/
def mapShards (change : LockShards → LockShards) : LockService → LockService
  | .unguarded => .unguarded
  | .sharded shards => .sharded (change shards)
  | .file service => .file { service with shards := change service.shards }

/-- What a handle took given back: first the file, then the shard. -/
def giveBack (room : LockRoom) (handle : LockHandle) : LockRoom :=
  let files := match handle.file with
    | some (path, inode) => room.files.release path inode
    | none => room.files
  let services := match handle.shard, room.services[handle.service]? with
    | some shard, some service => room.services.insert handle.service (mapShards (·.free shard) service)
    | _, _ => room.services
  { room with files, services }

/-- The room after a handle was released, and whether there is such a handle. What it took is given back at the first
release only. -/
def release (room : LockRoom) (name : String) : Bool × LockRoom :=
  match room.handles[name]? with
  | some handle =>
    let room := room.giveBack handle
    (true, { room with handles := room.handles.insert name { handle with shard := none, file := none } })
  | none => (false, room)

/-- The room after a handle was dropped, and whether there was such a handle. -/
def drop (room : LockRoom) (name : String) : Bool × LockRoom :=
  let (found, room) := room.release name
  (found, { room with handles := room.handles.erase name })

/-- The room with a handle on what was just taken; a handle of the same name is dropped. -/
def keep (room : LockRoom) (name : String) (handle : LockHandle) : LockRoom :=
  let room := (room.drop name).2
  { room with handles := room.handles.insert name handle }

/-- The state of a wait for a lock file: the files, the service, the milliseconds since the wait began, and the attempts that
have been made. -/
structure FileWait where
  files : LockFiles
  service : FileLockService
  elapsed : Nat
  attempts : Nat

/-- The turns of a wait for the lock file of a key. The cancellation comes `cancelAt` milliseconds after the start, and `faults`
says what goes wrong with each attempt. -/
def fileWaiter (path : String) (holder : Nat) (cancelAt : Option Nat) (faults : Nat → Option FileFault) :
    Waiter FileWait Nat where
  attempt wait :=
    let (taken, files) := wait.files.attempt path holder (faults wait.attempts)
    (taken, { wait with files, attempts := wait.attempts + 1 })
  readClock wait :=
    let (now, service) := wait.service.readClock
    (now, { wait with service })
  pause wait :=
    let elapsed := wait.elapsed + wait.service.backoff
    let cancelled := wait.service.cancelled || cancelAt.any (· ≤ elapsed)
    (cancelled, { wait with elapsed })

/-- How a wait for a lock ended, and what was taken. -/
abbrev LockOutcome := WaitOutcome LockHandle

/-- A lock of a file service asked for, watched for `patience` milliseconds. The shard is held before the wait for the file
begins, and freed again if the wait ends without the file. -/
def acquireFile (room : LockRoom) (name key : String) (service : FileLockService) (patience : Nat)
    (cancelAt : Option Nat) (faults : Nat → Option FileFault) : LockOutcome × LockRoom :=
  let shard := service.shards.shardOf key
  let settled := fun (service : FileLockService) (room : LockRoom) =>
    room.addService name (.file { service with cancelled := service.cancelled || cancelAt.isSome })
  if service.cancelled then (.failed (.lockInterrupted key), settled service room)
  else if !service.shards.isFree shard then
    let outcome := if cancelAt.any (· ≤ patience) then .failed (.lockInterrupted key) else .waiting
    (outcome, settled service room)
  else
    let service := { service with shards := service.shards.hold shard }
    let path := service.pathOf key
    let (started, service) := service.readClock
    let turns := patience / service.backoff + 1
    let (outcome, wait) := (fileWaiter path room.nextHolder cancelAt faults).run key service.timeout started turns
      ⟨room.files, service, 0, 0⟩
    let room := { room with files := wait.files, nextHolder := room.nextHolder + 1 }
    let released := { wait.service with shards := wait.service.shards.free shard }
    match outcome with
    | .obtained inode => (.obtained ⟨name, key, some shard, some (path, inode)⟩, settled wait.service room)
    | .failed e => (.failed e, settled released room)
    | .waiting => (.waiting, settled released room)

/-- A lock asked for, watched for `patience` milliseconds; a wait that is not over by then is given up. -/
def acquire (room : LockRoom) (name key : String) (patience : Nat) (cancelAt : Option Nat) (faults : Nat → Option FileFault) :
    LockOutcome × LockRoom :=
  match room.services[name]? with
  | none => (.failed (.notFound s!"lock service {name}"), room)
  | some .unguarded => (.obtained ⟨name, key, none, none⟩, room)
  | some (.sharded shards) =>
    let shard := shards.shardOf key
    if shards.isFree shard then
      (.obtained ⟨name, key, some shard, none⟩, room.addService name (.sharded (shards.hold shard)))
    else (.waiting, room)
  | some (.file service) => room.acquireFile name key service patience cancelAt faults

/-- The room with the waits of a service cancelled from now on. -/
def cancel (room : LockRoom) (name : String) : LockRoom :=
  match room.services[name]? with
  | some (.file service) => room.addService name (.file { service with cancelled := true })
  | _ => room

end LockRoom

end TileDepot
