import TileDepot.Settings.Settings
import TileDepot.Yaml.Reader

/-!
# Reading settings

Settings are a YAML map. A field that is not given has the value of `Settings.standard`, a field that is not known is passed
over, and a value of the wrong kind or out of the range of its field is an error, as is a field given twice.
-/

namespace TileDepot.Settings

/-- A whole number of 64 bits. -/
def long? : Yaml → Option Int := Yaml.int? Binary64.minInt64 Binary64.maxInt64

/-- A natural number of 64 bits. -/
def word? : Yaml → Option Nat := Yaml.nat? Binary64.maxUInt64

/-- The unit of storage a scalar names. -/
def byteUnit? (node : Yaml) : Option ByteUnit := node.text?.bind ByteUnit.ofName?

/-- The unit of time a scalar names. -/
def timeUnit? (node : Yaml) : Option TimeUnit := node.text?.bind TimeUnit.ofName?

/-- A byte size. -/
def byteSize? (node : Yaml) : Option ByteSize := do
  let entries ← node.entries?
  return .ofAmount (← Yaml.required? entries "value" Yaml.float?) (← Yaml.required? entries "units" byteUnit?)

/-- A layer quota. -/
def layerQuota? (node : Yaml) : Option LayerQuota := do
  let entries ← node.entries?
  return {
    layer := ← Yaml.required? entries "layer" Yaml.text?
    policy := ← Yaml.fieldD entries "expirationPolicyName" (Yaml.nullable Yaml.text?) none
    allowed := ← Yaml.fieldD entries "quota" (Yaml.nullable byteSize?) none
    used := ← Yaml.fieldD entries "usedQuota" byteSize? .zero }

/-- The lock settings. -/
def lock? (node : Yaml) : Option LockSettings := do
  let entries ← node.entries?
  let standard := defaultLock
  return {
    shards := ← Yaml.fieldD entries "shardCount" word? standard.shards
    root := ← Yaml.fieldD entries "root" (fun node => node.text?.map some) standard.root
    backoff := ← Yaml.fieldD entries "retryBackoff" word? standard.backoff
    timeout := ← Yaml.fieldD entries "timeout" word? standard.timeout }

/-- The cache settings. -/
def cache? (node : Yaml) : Option CacheSettings := do
  let entries ← node.entries?
  let standard := defaultCache
  return {
    capacity := ← Yaml.fieldD entries "capacityBytes" word? standard.capacity
    high := ← Yaml.fieldD entries "highWatermark" Yaml.float? standard.high
    low := ← Yaml.fieldD entries "lowWatermark" Yaml.float? standard.low }

/-- The log settings. -/
def log? (node : Yaml) : Option LogSettings := do
  let entries ← node.entries?
  let standard := defaultLog
  return {
    level := ← Yaml.fieldD entries "level" Yaml.text? standard.level
    json := ← Yaml.fieldD entries "json" Yaml.bool? standard.json }

/-- The settings a document holds. -/
def ofYaml? (node : Yaml) : Option Settings := do
  let entries ← node.entries?
  return {
    enabled := ← Yaml.fieldD entries "enabled" Yaml.bool? standard.enabled
    frequency := ← Yaml.fieldD entries "cacheCleanupFrequency" long? standard.frequency
    units := ← Yaml.fieldD entries "cacheCleanupUnits" (Yaml.nullable timeUnit?) standard.units
    sweeps := ← Yaml.fieldD entries "maxConcurrentCleanUps" (Yaml.int? Binary64.minInt32 Binary64.maxInt32) standard.sweeps
    policy := ← Yaml.fieldD entries "globalExpirationPolicyName" Yaml.text? standard.policy
    globalQuota := ← Yaml.fieldD entries "globalQuota" byteSize? standard.globalQuota
    diskBlock := ← Yaml.fieldD entries "diskBlockSize" long? standard.diskBlock
    layerQuotas := ← Yaml.fieldD entries "layerQuotas" (Yaml.list? layerQuota?) standard.layerQuotas
    lock := ← Yaml.fieldD entries "lock" lock? standard.lock
    cache := ← Yaml.fieldD entries "cache" cache? standard.cache
    log := ← Yaml.fieldD entries "log" log? standard.log }

/-- The settings a YAML text holds. -/
def ofText (text : String) : Except Error Settings :=
  match Yaml.read? text >>= ofYaml? with
  | some settings => .ok settings
  | none => .error .yaml

end TileDepot.Settings
