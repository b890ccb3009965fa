import TileDepot.Eviction.Policy
import TileDepot.Settings.LayerQuota
import TileDepot.Text.Characters

/-!
# Settings

What a depot is told: whether and how often it looks for layers over their quota, how much may be stored in all and in each
layer, how sizes are rounded on disk, and how its locks, its cache and its log are set up. Settings are read as they stand;
`Settings.validate` says whether a depot can run with them.
-/

namespace TileDepot

/-- The unit in which the time between two checks is given. -/
inductive TimeUnit where
  | milliseconds | seconds | minutes | hours | days
deriving Repr, DecidableEq, Inhabited

namespace TimeUnit

/-- All units, the shortest first. -/
def all : List TimeUnit := [milliseconds, seconds, minutes, hours, days]

/-- The name of a unit. -/
def name : TimeUnit → String
  | milliseconds => "MILLISECONDS"
  | seconds => "SECONDS"
  | minutes => "MINUTES"
  | hours => "HOURS"
  | days => "DAYS"

/-- The unit of a name. -/
def ofName? (name : String) : Option TimeUnit := all.find? (·.name == name)

/-- The milliseconds of one unit. -/
def factor : TimeUnit → Nat
  | milliseconds => 1
  | seconds => 1000
  | minutes => 60000
  | hours => 3600000
  | days => 86400000

/-- The milliseconds of an amount of units, cut down to a word of 64 bits. -/
def toMillis (unit : TimeUnit) (amount : Nat) : Nat := min (amount * unit.factor) Binary64.maxUInt64

end TimeUnit

/-- How locks are set up; times in milliseconds. -/
structure LockSettings where
  shards : Nat
  /-- The directory of the lock files, or none for the one of the machine. -/
  root : Option String
  backoff : Nat
  timeout : Nat
deriving Repr, DecidableEq, Inhabited

/-- How the tile cache is set up. -/
structure CacheSettings where
  /-- The bytes of payload the cache may hold. -/
  capacity : Nat
  /-- The part of the capacity from which on tiles are evicted. -/
  high : Float
  /-- The part of the capacity down to which they are evicted. -/
  low : Float
deriving Repr, Inhabited

/-- How much detail a log has. -/
inductive LogLevel where
  | trace | debug | info | warn | error
deriving Repr, DecidableEq, Inhabited

/-- How the log is set up. -/
structure LogSettings where
  level : String
  json : Bool
deriving Repr, DecidableEq, Inhabited

namespace LogLevel

/-- The name of a level. -/
def name : LogLevel → String
  | trace => "TRACE"
  | debug => "DEBUG"
  | info => "INFO"
  | warn => "WARN"
  | error => "ERROR"

/-- The level a text names in any case; a text that names none stands for `info`. No letter outside ASCII has a small form
that occurs in a name, so that only ASCII letters need to be made small. -/
def ofText (text : String) : LogLevel :=
  match Text.lowerAscii text with
  | "trace" => trace
  | "debug" => debug
  | "warn" => warn
  | "error" => error
  | _ => info

end LogLevel

/-- What a depot is told. -/
structure Settings where
  enabled : Bool
  /-- How many units of time lie between two checks. -/
  frequency : Int
  units : Option TimeUnit
  /-- How many sweeps may run at a time. -/
  sweeps : Int
  /-- The policy of layers without one of their own. -/
  policy : String
  /-- What the layers without a quota of their own may use together. -/
  globalQuota : ByteSize
  diskBlock : Int
  layerQuotas : List LayerQuota
  lock : LockSettings
  cache : CacheSettings
  log : LogSettings
deriving Repr, Inhabited

namespace Settings

/-- The lock settings of a depot that is told nothing. -/
def defaultLock : LockSettings := ⟨1024, none, 20, 120000⟩

/-- The cache settings of a depot that is told nothing. -/
def defaultCache : CacheSettings := ⟨16 * 1024 * 1024, 0.9, 0.8⟩

/-- The log settings of a depot that is told nothing. -/
def defaultLog : LogSettings := ⟨"info", false⟩

/-- The settings of a depot that is told nothing. -/
def standard : Settings where
  enabled := false
  frequency := 10
  units := some .seconds
  sweeps := 2
  policy := Policy.leastFrequent.name
  globalQuota := .ofAmount 500.0 .MiB
  diskBlock := 4096
  layerQuotas := []
  lock := defaultLock
  cache := defaultCache
  log := defaultLog

/-- Whether a layer quota can be enforced with the policies of a table. -/
def validateLayer (policies : PolicyTable) (quota : LayerQuota) : Except Error Unit :=
  if quota.allowed.isNone then .error (.config s!"layer quota for {quota.layer} has no quota")
  else match quota.policy with
    | some name =>
      if policies.contains name then .ok ()
      else .error (.config s!"unknown expiration policy {name} for layer {quota.layer}")
    | none => .ok ()

/-- Whether a depot with the policies of a table can run with the settings; the first fault is reported. -/
def validate (settings : Settings) (policies : PolicyTable) : Except Error Unit :=
  if settings.diskBlock ≤ 0 then .error (.config "diskBlockSize must be > 0")
  else if settings.units.isNone then .error (.config "cacheCleanupUnits must be set")
  else if settings.frequency ≤ 0 then .error (.config "cacheCleanupFrequency must be > 0")
  else if settings.sweeps ≤ 0 then .error (.config "maxConcurrentCleanUps must be > 0")
  else if !policies.contains settings.policy then
    .error (.config s!"unknown global expiration policy {settings.policy}")
  else settings.layerQuotas.forM (validateLayer policies)

/-- Milliseconds between two ticks of the scheduler. -/
def tickMillis : Nat := 1000

/-- The milliseconds between two checks, cut down to whole ticks. -/
def interval (settings : Settings) : Except Error Nat :=
  match settings.units with
  | none => .error (.config "cacheCleanupUnits must be set")
  | some units =>
    if settings.frequency < 0 then .error (.config "cacheCleanupFrequency must be > 0")
    else
      let requested := units.toMillis settings.frequency.toNat
      let clamped := requested - requested % tickMillis
      if clamped = 0 then
        .error (.config s!"cleanup interval of {requested} ms is shorter than {durationText tickMillis}")
      else .ok clamped

/-- The first quota given for a layer. -/
def layerQuota (settings : Settings) (layer : String) : Option LayerQuota :=
  settings.layerQuotas.find? (·.layer == layer)

/-- The name of the policy that a layer follows. -/
def policyFor (settings : Settings) (layer : String) : String :=
  ((settings.layerQuota layer).bind (·.policy)).getD settings.policy

/-- The bytes of a block on disk, at least one. -/
def blockSize (settings : Settings) : Nat := (max settings.diskBlock 1).toNat

/-- The settings as they are stored. -/
def doc (settings : Settings) : Json.Doc :=
  .object [("enabled", .bool settings.enabled), ("cacheCleanupFrequency", .int settings.frequency),
    ("cacheCleanupUnits", .nullable (fun units => .text units.name) settings.units),
    ("maxConcurrentCleanUps", .int settings.sweeps), ("globalExpirationPolicyName", .text settings.policy),
    ("globalQuota", settings.globalQuota.doc), ("diskBlockSize", .int settings.diskBlock),
    ("layerQuotas", .array (settings.layerQuotas.map LayerQuota.doc)),
    ("lock", .object [("shardCount", .nat settings.lock.shards), ("root", .nullable .text settings.lock.root),
      ("retryBackoff", .nat settings.lock.backoff), ("timeout", .nat settings.lock.timeout)]),
    ("cache", .object [("capacityBytes", .nat settings.cache.capacity), ("highWatermark", .float settings.cache.high),
      ("lowWatermark", .float settings.cache.low)]),
    ("log", .object [("level", .text settings.log.level), ("json", .bool settings.log.json)])]

end Settings

end TileDepot
