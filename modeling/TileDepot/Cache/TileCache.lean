import TileDepot.Cache.Counters
import TileDepot.Settings.Settings
import TileDepot.Tile.Range

/-!
# Tile caches

A cache holds the payloads of tiles up to a capacity in bytes. Every use of a tile is stamped with a tick. When a tile to be
put in would fill the cache to the high mark, the tiles whose last use is longest ago are evicted until the cache is filled
no more than to the low mark; then the tile goes in.
-/

namespace TileDepot

/-- A payload in a cache, and the tick of its last use. -/
structure CachedTile where
  payload : Payload
  lastUse : Nat
deriving Inhabited

/-- Payloads by tile, with the settings, the next tick and the counts. -/
structure TileCache where
  settings : CacheSettings
  entries : Std.ExtTreeMap TileKey CachedTile
  tick : Nat
  counters : CacheCounters

namespace TileCache

/-- An empty cache. -/
def empty (settings : CacheSettings) : TileCache := ⟨settings, ∅, 0, {}⟩

/-- The bytes of payload in some entries. -/
def payloadBytes (entries : Std.ExtTreeMap TileKey CachedTile) : Nat :=
  entries.foldl (fun total _ cached => total + cached.payload.size) 0

/-- The bytes of payload held. -/
def bytes (cache : TileCache) : Nat := payloadBytes cache.entries

/-- The payload cached for a tile, which is used by this. -/
def get (cache : TileCache) (key : TileKey) : Option Payload × TileCache :=
  match cache.entries[key]? with
  | some cached =>
    (some cached.payload, { cache with
      entries := cache.entries.insert key { cached with lastUse := cache.tick }
      tick := cache.tick + 1
      counters := cache.counters.hit })
  | none => (none, { cache with tick := cache.tick + 1, counters := cache.counters.miss })

/-- Whether a tile is cached. -/
def contains (cache : TileCache) (key : TileKey) : Bool := cache.entries.contains key

/-- A number of bytes as a part of the capacity. -/
def fillRatio (cache : TileCache) (bytes : Nat) : Float := Float.ofNat bytes / Float.ofNat cache.settings.capacity

/-- Whether `incoming` more bytes would fill the cache to the high mark. -/
def isCrowded (cache : TileCache) (incoming : Nat) : Bool :=
  cache.fillRatio (cache.bytes + incoming) ≥ cache.settings.high

/-- Whether the cache is filled above the low mark. -/
def isAboveLow (cache : TileCache) : Bool := cache.fillRatio cache.bytes > cache.settings.low

/-- The tiles of the cache, the one whose last use is longest ago first. -/
def byLastUse (cache : TileCache) : List (TileKey × CachedTile) :=
  cache.entries.toList.mergeSort fun a b => a.2.lastUse ≤ b.2.lastUse

/-- The cache without a tile, as it is after an eviction of that tile. -/
def dropEntry (cache : TileCache) (key : TileKey) : TileCache := { cache with entries := cache.entries.erase key }

/-- Tiles evicted in turn as long as the cache is filled above the low mark, and how many. -/
def evictWhile (cache : TileCache) : List TileKey → TileCache × Nat
  | [] => (cache, 0)
  | key :: rest =>
    if cache.isAboveLow then
      let (cache, count) := evictWhile (cache.dropEntry key) rest
      (cache, count + 1)
    else (cache, 0)

/-- The cache after an eviction. -/
def evict (cache : TileCache) : TileCache :=
  let (cache, count) := cache.evictWhile (cache.byLastUse.map (·.1))
  { cache with counters := cache.counters.evict count }

/-- The cache with a payload for a tile, whatever its size. -/
def insert (cache : TileCache) (key : TileKey) (payload : Payload) : TileCache :=
  { cache with
    entries := cache.entries.insert key ⟨payload, cache.tick⟩
    tick := cache.tick + 1
    counters := cache.counters.insert }

/-- A payload put into the cache, and whether it was: nothing and more than the capacity are passed over. -/
def put (cache : TileCache) (key : TileKey) (payload : Option Payload) : Bool × TileCache :=
  match payload with
  | none => (false, cache)
  | some payload =>
    if payload.size > cache.settings.capacity then (false, cache)
    else
      let cache := if cache.isCrowded payload.size then cache.evict else cache
      (true, cache.insert key payload)

/-- The cache without a tile that is no longer valid, and whether it held the tile. -/
def remove (cache : TileCache) (key : TileKey) : Bool × TileCache :=
  if cache.contains key then
    (true, { cache with entries := cache.entries.erase key, counters := cache.counters.invalidate 1 })
  else (false, cache)

/-- The cache without the tiles that are no longer valid, and how many it held. -/
def removeWhere (cache : TileCache) (invalid : TileKey → Bool) : Nat × TileCache :=
  let kept := cache.entries.filter fun key _ => !invalid key
  let count := cache.entries.size - kept.size
  (count, { cache with entries := kept, counters := cache.counters.invalidate count })

/-- The cache without the tiles of a layer, and how many it held. -/
def removeLayer (cache : TileCache) (layer : String) : Nat × TileCache := cache.removeWhere (·.layer == layer)

/-- The cache without the tiles of a range, and how many it held. -/
def removeRange (cache : TileCache) (range : TileRange) : Nat × TileCache := cache.removeWhere range.contains

/-- The cache without its tiles, none of which is valid any longer. -/
def clear (cache : TileCache) : TileCache :=
  { cache with entries := ∅, counters := cache.counters.invalidate cache.entries.size }

/-- The counts and how full the cache is. -/
def report (cache : TileCache) : CacheReport :=
  ⟨cache.counters, cache.entries.size, cache.bytes, cache.settings.capacity⟩

/-- The cache with its counts set back. -/
def resetCounters (cache : TileCache) : TileCache := { cache with counters := {} }

end TileCache

end TileDepot
