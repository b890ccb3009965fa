import TileDepot.Cache.TileCache
import TileDepot.Store.Locks

/-!
# Stores with a cache

A cache stands beside a store. A tile that is not cached is read from the store and put into the cache. Whatever changes the
store takes the tiles concerned out of the cache, a deletion before and after the store has been asked: a tile that was read
before the deletion and cached during it does not stay. With locks, a tile that is not cached is looked up a second time
under its lock, so that of several readers one alone asks the store; a lock that cannot be had is done without.
-/

namespace TileDepot.CacheAside

variable {σ α : Type}

/-- The tile looked up in the cache. -/
def lookUp (cache : Cell σ TileCache) (key : TileKey) : Run σ (Option Payload) := cache.step (·.get key)

/-- The tile read from the store and cached. -/
def load (cache : Cell σ TileCache) (store : TileStore σ) (request : Tile) : Run σ (Option Payload) := do
  match ← store (.get request) with
  | none => return none
  | some payload =>
    cache.change fun cached => (cached.put request.key (some payload)).2
    return some payload

/-- The tile from the cache, or else from the store. -/
def lookUpOrLoad (cache : Cell σ TileCache) (store : TileStore σ) (request : Tile) : Run σ (Option Payload) := do
  match ← lookUp cache request.key with
  | some payload => return some payload
  | none => load cache store request

/-- The name of the lock of a tile. -/
def lockName (key : TileKey) : String := s!"tile-cache:{key.text}"

/-- The tile read from the store under its lock, unless somebody has cached it by then. -/
def loadLocked (cache : Cell σ TileCache) (locks : Locks σ) (store : TileStore σ) (request : Tile) :
    Run σ (Option Payload) := do
  match ← Run.attempt (locks.acquire (lockName request.key)) with
  | .error _ => load cache store request
  | .ok _ =>
    let answer ← Run.attempt (lookUpOrLoad cache store request)
    Run.ignoringFailure (locks.release (lockName request.key))
    Run.result answer

/-- A tile got through the cache. -/
def get (cache : Cell σ TileCache) (locks : Option (Locks σ)) (store : TileStore σ) (request : Tile) :
    Run σ (Option Payload) := do
  match ← lookUp cache request.key with
  | some payload => return some payload
  | none =>
    match locks with
    | none => load cache store request
    | some locks => loadLocked cache locks store request

/-- A tile put into the store; what was cached of it is dropped once it is stored. -/
def put (cache : Cell σ TileCache) (store : TileStore σ) (tile : Tile) : Run σ Unit := do
  store (.put tile)
  cache.change fun cached => (cached.remove tile.key).2

/-- A call that makes tiles invalid: they are dropped from the cache before and after it, whether it fails or not. -/
def dropping (cache : Cell σ TileCache) (drop : TileCache → TileCache) (call : Run σ α) : Run σ α := do
  cache.change drop
  let answer ← Run.attempt call
  cache.change drop
  Run.result answer

/-- A store with a cache beside it. To clear it is to clear the cache alone. -/
def tileStore (cache : Cell σ TileCache) (locks : Option (Locks σ)) (store : TileStore σ) : TileStore σ
  | .get request => get cache locks store request
  | .put tile => put cache store tile
  | .delete key => dropping cache (fun cached => (cached.remove key).2) (store (.delete key))
  | .deleteRange range => dropping cache (fun cached => (cached.removeRange range).2) (store (.deleteRange range))
  | .deleteLayer layer => dropping cache (fun cached => (cached.removeLayer layer).2) (store (.deleteLayer layer))
  | .deleteGridset layer gridset =>
    dropping cache (fun cached => (cached.removeWhere fun key => key.layer == layer && key.gridset == gridset).2)
      (store (.deleteGridset layer gridset))
  | .deleteParameters layer parameters =>
    dropping cache
      (fun cached => (cached.removeWhere fun key => key.layer == layer && key.parameters == some parameters).2)
      (store (.deleteParameters layer parameters))
  | .rename layer target =>
    dropping cache (fun cached => (cached.removeLayer layer).2) (store (.rename layer target))
  | .clear => cache.change TileCache.clear
  | .layerExists layer => store (.layerExists layer)
  | .parametersOf layer => store (.parametersOf layer)
  | .metadata layer key => store (.metadata layer key)
  | .putMetadata layer key value => store (.putMetadata layer key value)
  | .addListener listener => store (.addListener listener)
  | .removeListener listener => store (.removeListener listener)

end TileDepot.CacheAside
