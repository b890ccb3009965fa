import TileDepot.Proofs.Cache.Partitioned
import TileDepot.Proofs.Cache.Recency

/-!
# A cache in a partitioned map

A cache keeps its entries in a partitioned map. Every step of the cache is a few steps of the map: a use changes an entry where it
stands, an eviction removes one tile after the other, and what is no longer valid is not retained. So the entries of a cache are
those of a map that has served these steps, whatever its hash, and the totals of the map are those of the cache.
-/

namespace TileDepot.TileCache

/-- What a cached tile weighs: the bytes of its payload. -/
def weighTile (cached : CachedTile) : UInt64 := UInt64.ofNat cached.payload.size

/-- The tiles that an eviction takes. -/
def evictedKeys (cache : TileCache) : List TileKey :=
  (cache.byLastUse.map (·.1)).take (cache.evictWhile (cache.byLastUse.map (·.1))).2

/-- What a step of a cache asks of the map that keeps the entries. -/
def mapSteps (cache : TileCache) : CacheStep → List (MapStep TileKey CachedTile)
  | .get key => [.update key fun cached => { cached with lastUse := cache.tick }]
  | .put _ none => []
  | .put key (some payload) =>
    if payload.size > cache.settings.capacity then []
    else (if cache.isCrowded payload.size then cache.evictedKeys.map .remove else []) ++ [.insert key ⟨payload, cache.tick⟩]
  | .remove key => [.remove key]
  | .removeWhere invalid => [.retain fun key _ => !invalid key]
  | .removeLayer layer => [.retain fun key _ => !(key.layer == layer)]
  | .removeRange range => [.retain fun key _ => !range.contains key]
  | .clear => [.clear]

/-- What some steps of a cache ask of the map. -/
def mapStepsOf (cache : TileCache) : List CacheStep → List (MapStep TileKey CachedTile)
  | [] => []
  | step :: steps => cache.mapSteps step ++ (cache.perform step).mapStepsOf steps

/-- A table after some steps. -/
def tableAfter (table : Std.ExtTreeMap TileKey CachedTile) (steps : List (MapStep TileKey CachedTile)) :
    Std.ExtTreeMap TileKey CachedTile :=
  steps.foldl (fun table step => (step.onTable table).2) table

variable {cache : TileCache} {key : TileKey}

/-! ## One step -/

/-- Steps change a table one after the other. -/
theorem tableAfter_append (table : Std.ExtTreeMap TileKey CachedTile) (steps steps' : List (MapStep TileKey CachedTile)) :
    tableAfter table (steps ++ steps') = tableAfter (tableAfter table steps) steps' := List.foldl_append

/-- Tiles removed from the table one after the other are those dropped from the cache. -/
theorem tableAfter_remove (cache : TileCache) (keys : List TileKey) :
    tableAfter cache.entries (keys.map .remove) = (cache.dropAll keys).entries := by
  induction keys generalizing cache with
  | nil => rfl
  | cons first rest ih => exact ih (cache.dropEntry first)

/-- An eviction takes the tiles that it counts. -/
theorem entries_evict (cache : TileCache) : cache.evict.entries = (cache.dropAll cache.evictedKeys).entries := by
  obtain ⟨count, -, hevict⟩ := cache.exists_suffices (cache.byLastUse.map (·.1))
  unfold evict evictedKeys
  rw [hevict]

/-- An eviction does not touch the clock of the cache. -/
theorem tick_evict (cache : TileCache) : cache.evict.tick = cache.tick := by
  obtain ⟨count, -, hevict⟩ := cache.exists_evict
  rw [hevict]
  exact tick_dropAll cache _

/-- A use of a tile changes its entry where it stands, if there is one. -/
theorem entries_get (cache : TileCache) (key : TileKey) :
    (cache.get key).2.entries = cache.entries.modify key fun cached => { cached with lastUse := cache.tick } := by
  refine Std.ExtTreeMap.ext_getElem? fun other => ?_
  rw [Std.ExtTreeMap.getElem?_modify]
  simp only [Std.LawfulEqCmp.compare_eq_iff_eq]
  cases hkey : cache.entries[key]? with
  | none =>
    rw [get_of_none hkey]
    split
    · rename_i hother
      rw [← hother, hkey]
      rfl
    · rfl
  | some cached =>
    rw [get_of_some hkey]
    exact Table.getElem?_insert _ _ _ _

/-- The entries of a cache after a step are the table after what the step asks of the map. -/
theorem entries_perform (cache : TileCache) (step : CacheStep) :
    (cache.perform step).entries = tableAfter cache.entries (cache.mapSteps step) := by
  cases step with
  | get key => exact entries_get cache key
  | put key payload =>
    cases payload with
    | none => rfl
    | some payload =>
      simp only [perform, put, mapSteps]
      split
      · rfl
      · rw [tableAfter_append]
        split
        · rw [tableAfter_remove, ← entries_evict]
          exact congrArg (cache.evict.entries.insert key ⟨payload, ·⟩) cache.tick_evict
        · rfl
  | remove key => exact entries_remove cache key
  | removeWhere | removeLayer | removeRange | clear => rfl

/-! ## Any number of steps -/

/-- The entries of a cache after some steps are the table after what they ask of the map. -/
theorem entries_serve (cache : TileCache) (steps : List CacheStep) :
    (cache.serve steps).entries = tableAfter cache.entries (cache.mapStepsOf steps) := by
  induction steps generalizing cache with
  | nil => rfl
  | cons step steps ih =>
    rw [mapStepsOf, tableAfter_append, ← entries_perform]
    exact ih (cache.perform step)

/-- The bytes of a cache are what its entries weigh, as far as a word holds it. -/
theorem load_weighTile (cache : TileCache) : load weighTile cache.entries % 2 ^ 64 = cache.bytes % 2 ^ 64 := by
  have hbytes : cache.bytes = (cache.entries.toList.map fun entry => entry.2.payload.size).sum := by
    have h := cache.bytes_eq
    rw [Table.weigh_natCast] at h
    exact_mod_cast h
  rw [hbytes, load, List.sum_nat_mod (cache.entries.toList.map fun entry => entry.2.payload.size), List.map_map]
  refine congrArg (List.sum · % 2 ^ 64) (List.map_congr_left fun entry _ => ?_)
  exact UInt64.toNat_ofNat'

/-- A cache is kept in a map cut into any power of two of parts by any hash: after any steps of the cache the map has the entries
of the cache, finds each tile that the cache holds, and has their number and their bytes as its totals. -/
theorem kept_in_parts (settings : CacheSettings) (hash : TileKey → Nat) (exponent : Nat) (steps : List CacheStep) :
    ∃ start : PartitionedMap TileKey CachedTile, PartitionedMap.ofCount (2 ^ exponent) = .ok start ∧
      let cache := (empty settings).serve steps
      let map := start.serve hash weighTile ((empty settings).mapStepsOf steps)
      (∀ key, map.get? hash key = cache.entries[key]?) ∧ map.toList.Perm cache.entries.toList ∧
        map.size.toNat = cache.entries.size % 2 ^ 64 ∧ map.weight.toNat = cache.bytes % 2 ^ 64 := by
  obtain ⟨start, hstart, hshares⟩ := PartitionedMap.exists_ofCount hash weighTile exponent
  refine ⟨start, hstart, ?_⟩
  intro cache map
  have hmap : map.Shares hash weighTile (2 ^ exponent) cache.entries := by
    rw [show cache.entries = _ from entries_serve (empty settings) steps]
    exact hshares.serve ((empty settings).mapStepsOf steps)
  exact ⟨hmap.getElem?_part, hmap.toList_perm, hmap.size_eq, hmap.weight_eq.trans (load_weighTile cache)⟩

end TileDepot.TileCache
