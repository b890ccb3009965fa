import TileDepot.Proofs.Cache.Alike

/-!
# The balance of cache statistics

Every entry that came into a cache is held still, or it was evicted, was no longer valid, or was replaced under its own key,
and it is counted where it went. The step lemma says so of each step, and the run lemma adds the steps up.
-/

namespace TileDepot

/-- Whether a step looks a tile up. -/
def CacheStep.looksUp : CacheStep → Bool
  | .get _ => true
  | _ => false

namespace TileCache

/-- The cache with room made for some bytes, if they would fill it to the high mark. -/
def withRoom (cache : TileCache) (incoming : Nat) : TileCache := if cache.isCrowded incoming then cache.evict else cache

/-- How many entries a step replaces: a put replaces that of its tile, if it is still there when room has been made. -/
def replacedBy (cache : TileCache) : CacheStep → Nat
  | .put key (some payload) =>
    if payload.size ≤ cache.settings.capacity then ((cache.withRoom payload.size).contains key).toNat else 0
  | _ => 0

/-- How many entries some steps replace, one after the other. -/
def replacements (cache : TileCache) : List CacheStep → Nat
  | [] => 0
  | step :: steps => cache.replacedBy step + (cache.perform step).replacements steps

/-- Some entries have left a cache, no more and no fewer than one of the tallies has gone up by; the others are as they were. -/
structure Sheds (tally : CacheCounters → Nat → CacheCounters) (count : Nat) (cache cache' : TileCache) : Prop where
  counters : cache'.counters = tally cache.counters count
  size : cache'.entries.size + count = cache.entries.size
  kept : ∀ {key : TileKey} {cached : CachedTile}, cache'.entries[key]? = some cached → cache.entries[key]? = some cached

/-- Every way out of a cache is tallied. -/
structure TalliesRemovals (cache : TileCache) : Prop where
  evict : ∃ count, Sheds CacheCounters.evict count cache cache.evict
  remove : ∀ key, Sheds CacheCounters.invalidate (cache.remove key).1.toNat cache (cache.remove key).2
  removeWhere : ∀ invalid, Sheds CacheCounters.invalidate (cache.removeWhere invalid).1 cache (cache.removeWhere invalid).2
  clear : Sheds CacheCounters.invalidate cache.entries.size cache cache.clear

/-- As many entries have come to a cache and have left it as were counted, beside some that were replaced. -/
structure Balances (replaced : Nat) (cache cache' : TileCache) : Prop where
  entries : cache.entries.size + cache'.counters.insertions + cache.counters.evictions + cache.counters.invalidations =
    cache'.entries.size + cache.counters.insertions + cache'.counters.evictions + cache'.counters.invalidations + replaced

variable {cache cache' cache'' : TileCache} {key : TileKey} {payload : Payload} {count replaced replaced' : Nat}

/-- What is replaced in two stretches one after the other adds up. -/
theorem Balances.trans (h : Balances replaced cache cache') (h' : Balances replaced' cache' cache'') :
    Balances (replaced + replaced') cache cache'' := by
  have hentries := h.entries
  have hentries' := h'.entries
  exact ⟨by omega⟩

/-- Entries that are evicted and counted as evictions keep the balance. -/
theorem Sheds.balances_of_evict (h : Sheds CacheCounters.evict count cache cache') : Balances 0 cache cache' := by
  have hsize := h.size
  refine ⟨?_⟩
  rw [h.counters]
  simp only [CacheCounters.evict]
  omega

/-- Entries that are removed and counted as invalidations keep the balance. -/
theorem Sheds.balances_of_invalidate (h : Sheds CacheCounters.invalidate count cache cache') : Balances 0 cache cache' := by
  have hsize := h.size
  refine ⟨?_⟩
  rw [h.counters]
  simp only [CacheCounters.invalidate]
  omega

/-! ## Entries that leave -/

/-- What is found after one entry was erased was there before. -/
theorem getElem?_of_erase {cached : CachedTile} {other : TileKey} (h : (cache.entries.erase key)[other]? = some cached) :
    cache.entries[other]? = some cached := by
  rw [Table.getElem?_erase] at h
  split at h
  · cases h
  · exact h

/-- Different tiles that are cached make as many entries fewer. -/
theorem size_dropAll (keys : List TileKey) : ∀ cache : TileCache, keys.Nodup → (∀ key ∈ keys, cache.contains key = true) →
    (cache.dropAll keys).entries.size + keys.length = cache.entries.size := by
  induction keys with
  | nil => intro cache _ _; rfl
  | cons first rest ih =>
    intro cache hnodup hcached
    obtain ⟨hfirst, hnodup⟩ := List.nodup_cons.mp hnodup
    have hrest : ∀ key ∈ rest, (cache.dropEntry first).contains key = true := by
      intro key hkey
      have hne : first ≠ key := fun heq => hfirst (heq ▸ hkey)
      rw [contains_eq, entries_dropEntry, Table.getElem?_erase, if_neg hne, ← contains_eq]
      exact hcached key (List.mem_cons_of_mem _ hkey)
    have hsize := ih (cache.dropEntry first) hnodup hrest
    have hone := size_erase_of_contains (hcached first List.mem_cons_self)
    change ((cache.dropEntry first).dropAll rest).entries.size + (rest.length + 1) = _
    rw [entries_dropEntry] at hsize
    omega

/-- An eviction counts the entries that it takes. -/
theorem exists_sheds_evict (cache : TileCache) : ∃ count, Sheds CacheCounters.evict count cache cache.evict := by
  obtain ⟨count, hcount, hevict⟩ := cache.exists_evict
  have htaken : ∀ key ∈ (cache.byLastUse.map Prod.fst).take count, cache.contains key = true := by
    intro key hkey
    obtain ⟨cached, hcached⟩ := mem_map_byLastUse.mp (List.mem_of_mem_take hkey)
    rw [contains_eq, hcached]
    rfl
  have hsize := size_dropAll _ cache (cache.nodup_map_byLastUse.take) htaken
  rw [List.length_take, min_eq_left hcount.le] at hsize
  refine ⟨count, ?_, ?_, fun {key cached} hkey => ?_⟩
  · rw [hevict, counters_dropAll]
  · rw [hevict]
    exact hsize
  · rw [hevict] at hkey
    dsimp only at hkey
    rw [getElem?_dropAll] at hkey
    split at hkey
    · cases hkey
    · exact hkey

/-- A removal says whether it found an entry, and counts it if it did. -/
theorem sheds_remove (cache : TileCache) (key : TileKey) :
    Sheds CacheCounters.invalidate (cache.remove key).1.toNat cache (cache.remove key).2 := by
  unfold remove
  split
  · rename_i hcontains
    exact ⟨rfl, size_erase_of_contains hcontains, getElem?_of_erase⟩
  · exact ⟨rfl, rfl, id⟩

/-- A removal by a predicate says how many entries it found, and counts them. -/
theorem sheds_removeWhere (cache : TileCache) (invalid : TileKey → Bool) :
    Sheds CacheCounters.invalidate (cache.removeWhere invalid).1 cache (cache.removeWhere invalid).2 where
  counters := rfl
  size := Nat.add_sub_cancel' (Std.ExtTreeMap.size_filter_le_size ..)
  kept h := by
    rw [removeWhere, Std.ExtTreeMap.getElem?_filter', Option.filter_eq_some_iff] at h
    exact h.1

/-- To clear the cache sheds all of its entries, and counts each of them as an invalidation. -/
theorem sheds_clear (cache : TileCache) : Sheds CacheCounters.invalidate cache.entries.size cache cache.clear where
  counters := rfl
  size := by simp [clear]
  kept h := by simp [clear] at h

/-- Every removal of an entry is counted as an invalidation. -/
theorem talliesRemovals (cache : TileCache) : cache.TalliesRemovals :=
  ⟨cache.exists_sheds_evict, cache.sheds_remove, cache.sheds_removeWhere, cache.sheds_clear⟩

/-! ## Entries that come -/

/-- Making room takes entries away, if it does anything. -/
theorem exists_sheds_withRoom (cache : TileCache) (incoming : Nat) :
    ∃ count, Sheds CacheCounters.evict count cache (cache.withRoom incoming) := by
  unfold withRoom
  split
  · exact cache.exists_sheds_evict
  · exact ⟨0, rfl, rfl, id⟩

/-- A payload that is no larger than the capacity goes in after room has been made. -/
theorem put_of_le (h : payload.size ≤ cache.settings.capacity) (key : TileKey) :
    cache.put key (some payload) = (true, (cache.withRoom payload.size).insert key payload) := by
  simp only [put, if_neg (Nat.not_lt.mpr h), withRoom]

/-- An insertion is counted, and an entry is replaced if there was one of the tile. -/
theorem balances_insert (cache : TileCache) (key : TileKey) (payload : Payload) :
    Balances (cache.contains key).toNat cache (cache.insert key payload) := by
  refine ⟨?_⟩
  rw [entries_insert, Std.ExtTreeMap.size_insert]
  simp only [insert, CacheCounters.insert, contains]
  cases cache.entries.contains key <;> simp <;> omega

/-- To look a tile up keeps the balance. -/
theorem balances_get (cache : TileCache) (key : TileKey) : Balances 0 cache (cache.get key).2 := by
  refine ⟨?_⟩
  cases hkey : cache.entries[key]? with
  | none =>
    rw [get_of_none hkey]
    rfl
  | some cached =>
    have hcontains : cache.entries.contains key = true := by
      rw [← contains, contains_eq, hkey]
      rfl
    rw [get_of_some hkey]
    simp only [Std.ExtTreeMap.size_insert, if_pos hcontains, CacheCounters.hit]
    omega

/-- What comes and what leaves in a step balances with what is counted. -/
theorem balances_perform (cache : TileCache) (step : CacheStep) :
    Balances (cache.replacedBy step) cache (cache.perform step) := by
  cases step with
  | get key => exact balances_get cache key
  | put key payload =>
    cases payload with
    | none => exact ⟨rfl⟩
    | some payload =>
      simp only [perform, replacedBy]
      by_cases hsize : payload.size ≤ cache.settings.capacity
      · obtain ⟨count, hroom⟩ := cache.exists_sheds_withRoom payload.size
        rw [if_pos hsize, put_of_le hsize, ← Nat.zero_add (Bool.toNat _)]
        exact hroom.balances_of_evict.trans (balances_insert _ key payload)
      · rw [if_neg hsize, put_of_large (Nat.not_le.mp hsize)]
        exact ⟨rfl⟩
  | remove key => exact (cache.sheds_remove key).balances_of_invalidate
  | removeWhere invalid => exact (cache.sheds_removeWhere invalid).balances_of_invalidate
  | removeLayer layer => exact (cache.sheds_removeWhere (·.layer == layer)).balances_of_invalidate
  | removeRange range => exact (cache.sheds_removeWhere range.contains).balances_of_invalidate
  | clear => exact cache.sheds_clear.balances_of_invalidate

/-- So it does in a run. -/
theorem balances_serve (steps : List CacheStep) (cache : TileCache) :
    Balances (cache.replacements steps) cache (cache.serve steps) := by
  induction steps generalizing cache with
  | nil => exact ⟨rfl⟩
  | cons step steps ih => exact (balances_perform cache step).trans (ih (cache.perform step))

/-! ## Look-ups and puts -/

/-- A put says whether the payload went in, and counts it if it did. -/
theorem put_insertions (cache : TileCache) (key : TileKey) (payload : Option Payload) :
    (cache.put key payload).2.counters.insertions = cache.counters.insertions + (cache.put key payload).1.toNat := by
  cases payload with
  | none => rfl
  | some payload =>
    by_cases hsize : payload.size ≤ cache.settings.capacity
    · obtain ⟨count, hroom⟩ := cache.exists_sheds_withRoom payload.size
      simp only [put_of_le hsize, insert, hroom.counters, CacheCounters.insert, CacheCounters.evict, Bool.toNat_true]
    · simp only [put, if_pos (Nat.not_le.mp hsize), Bool.toNat_false, Nat.add_zero]

/-- To put a tile counts no look-up. -/
theorem lookUps_put (cache : TileCache) (key : TileKey) (payload : Option Payload) :
    (cache.put key payload).2.counters.lookUps = cache.counters.lookUps := by
  cases payload with
  | none => rfl
  | some payload =>
    by_cases hsize : payload.size ≤ cache.settings.capacity
    · obtain ⟨count, hroom⟩ := cache.exists_sheds_withRoom payload.size
      simp only [put_of_le hsize, insert, hroom.counters, CacheCounters.lookUps, CacheCounters.insert, CacheCounters.evict]
    · rw [put_of_large (Nat.not_le.mp hsize)]

/-- To get a tile counts one look-up. -/
theorem lookUps_get (cache : TileCache) (key : TileKey) :
    (cache.get key).2.counters.lookUps = cache.counters.lookUps + 1 := by
  cases hkey : cache.entries[key]? with
  | none => simp only [get_of_none hkey, CacheCounters.lookUps, CacheCounters.miss, Nat.add_assoc]
  | some cached =>
    simp only [get_of_some hkey, CacheCounters.lookUps, CacheCounters.hit]
    omega

/-- Only look-ups count as look-ups. -/
theorem lookUps_perform (cache : TileCache) (step : CacheStep) :
    (cache.perform step).counters.lookUps = cache.counters.lookUps + step.looksUp.toNat := by
  cases step with
  | get key => exact lookUps_get cache key
  | put key payload => exact lookUps_put cache key payload
  | remove key =>
    rw [perform, (cache.sheds_remove key).counters]
    rfl
  | removeWhere _ | removeLayer _ | removeRange _ | clear => rfl

/-- The look-ups that are counted are those that were asked for. -/
theorem lookUps_serve (steps : List CacheStep) (cache : TileCache) :
    (cache.serve steps).counters.lookUps = cache.counters.lookUps + steps.countP CacheStep.looksUp := by
  induction steps generalizing cache with
  | nil => rfl
  | cons step steps ih =>
    have hrest := ih (cache.perform step)
    have hstep := cache.lookUps_perform step
    rw [List.countP_cons]
    change ((cache.perform step).serve steps).counters.lookUps = _
    cases hlook : step.looksUp <;> simp only [hlook, Bool.toNat_true, Bool.toNat_false] at hstep <;> simp <;> omega

/-! ## The statistics of a cache -/

/-- What was put in is held, or it was evicted, invalidated or replaced; a look-up is a hit or a miss; a put that says that it
put something in has counted it; and nothing leaves without being tallied. -/
theorem statistics_balance (settings : CacheSettings) (steps : List CacheStep) :
    let cache := (empty settings).serve steps
    cache.counters.insertions = cache.entries.size + cache.counters.evictions + cache.counters.invalidations +
        (empty settings).replacements steps ∧
      cache.counters.hits + cache.counters.misses = steps.countP CacheStep.looksUp ∧
      (∀ key payload, (cache.put key payload).2.counters.insertions =
        cache.counters.insertions + (cache.put key payload).1.toNat) ∧
      cache.TalliesRemovals := by
  dsimp only
  have hentries := (balances_serve steps (empty settings)).entries
  have hsize : (empty settings).entries.size = 0 := rfl
  have hcounters : (empty settings).counters = {} := rfl
  have hlookUps := lookUps_serve steps (empty settings)
  rw [hcounters] at hentries hlookUps
  refine ⟨?_, ?_, put_insertions _, talliesRemovals _⟩
  · rw [hsize] at hentries
    dsimp only at hentries
    omega
  · exact hlookUps.trans (Nat.zero_add _)

end TileCache

end TileDepot
