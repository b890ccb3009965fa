import TileDepot.Proofs.Cache.Recency

/-!
# Caches that hold the same

Two caches that hold the same payloads under the same settings are filled alike, and when their tiles were used in the same order
an eviction takes the same tiles from both. So two caches that differ in how often they were looked into for tiles that they do
not hold go on to hold the same, whatever they are asked for, and differ in the misses that they count.
-/

namespace TileDepot

/-- The look-ups that are counted. -/
def CacheCounters.lookUps (counters : CacheCounters) : Nat := counters.hits + counters.misses

namespace TileCache

/-! ## Caches that hold the same -/

/-- Two caches that hold the same payloads under the same settings. -/
structure Alike (cache cache' : TileCache) : Prop where
  settings : cache'.settings = cache.settings
  payload : ∀ key : TileKey, cache'.payload? key = cache.payload? key

variable {cache cache' : TileCache} {uses : List TileKey}

/-- Caches that are alike hold the same payloads. -/
theorem Alike.payloads (h : Alike cache cache') :
    (cache'.entries.map fun _ cached => cached.payload) = cache.entries.map fun _ cached => cached.payload := by
  refine Std.ExtTreeMap.ext_getElem? fun key => ?_
  simpa only [Std.ExtTreeMap.getElem?_map, payload?] using h.payload key

/-- Caches that are alike hold as many entries. -/
theorem Alike.size (h : Alike cache cache') : cache'.entries.size = cache.entries.size := by
  simpa using congrArg Std.ExtTreeMap.size h.payloads

/-- Caches that are alike hold as many bytes. -/
theorem Alike.bytes (h : Alike cache cache') : cache'.bytes = cache.bytes := by
  have hbytes : ∀ cache : TileCache, (cache.bytes : Int) =
      Table.weigh (cache.entries.map fun _ cached => cached.payload) fun _ payload => payload.size := by
    intro cache
    rw [cache.bytes_eq, Table.weigh_map]
  have hsum := hbytes cache'
  rw [h.payloads, ← hbytes cache] at hsum
  exact Int.ofNat_inj.mp hsum

/-- Caches that are alike hold the same tiles. -/
theorem Alike.contains (h : Alike cache cache') : cache'.contains = cache.contains := by
  funext key
  simpa [contains_eq, payload?] using congrArg Option.isSome (h.payload key)

/-- Caches that are alike are above their low mark together. -/
theorem Alike.isAboveLow (h : Alike cache cache') : cache'.isAboveLow = cache.isAboveLow := by
  rw [TileCache.isAboveLow, TileCache.isAboveLow, fillRatio, fillRatio, h.bytes, h.settings]

/-- Caches that are alike make room for the same payloads. -/
theorem Alike.makesRoom_iff (h : Alike cache cache') (incoming : Nat) : cache'.MakesRoom incoming ↔ cache.MakesRoom incoming := by
  rw [MakesRoom, MakesRoom, isCrowded, isCrowded, fillRatio, fillRatio, h.bytes, h.settings]

/-- To drop entries does not touch the settings. -/
theorem settings_dropAll (cache : TileCache) (keys : List TileKey) : (cache.dropAll keys).settings = cache.settings := by
  induction keys generalizing cache with
  | nil => rfl
  | cons first rest ih => exact ih (cache.dropEntry first)

/-- Caches that are alike stay so when the same entries are dropped. -/
theorem Alike.dropAll (h : Alike cache cache') (keys : List TileKey) : Alike (cache.dropAll keys) (cache'.dropAll keys) := by
  refine ⟨by simp [settings_dropAll, h.settings], fun key => ?_⟩
  simp only [payload?, getElem?_dropAll]
  split
  · rfl
  · exact h.payload key

/-- Caches that are alike stay so when the same payload is inserted. -/
theorem Alike.insert (h : Alike cache cache') (key : TileKey) (payload : Payload) :
    Alike (cache.insert key payload) (cache'.insert key payload) := by
  refine ⟨h.settings, fun key' => ?_⟩
  simp only [payload?_insert, h.payload]

/-- As many tiles have to go from the one as from the other. -/
theorem Alike.suffices (h : Alike cache cache') {order : List TileKey} {count : Nat} (hcount : cache.Suffices order count) :
    cache'.Suffices order count where
  le := hcount.le
  needed fewer hfewer := (h.dropAll _).isAboveLow.trans (hcount.needed fewer hfewer)
  enough := hcount.enough.imp_right fun hlow habove => hlow ((h.dropAll _).isAboveLow.symm.trans habove)

/-- The same tiles go from both when a payload is put in, if they were used in the same order. -/
theorem Alike.exists_put (h : Alike cache cache') (hstamped : Stamped uses cache) (hstamped' : Stamped uses cache')
    (key : TileKey) {payload : Payload} (hsize : payload.size ≤ cache.settings.capacity) :
    ∃ (gone : List TileKey) (count : Nat),
      cache.put key (some payload) =
        (true, { cache.dropAll gone with counters := cache.counters.evict count }.insert key payload) ∧
      cache'.put key (some payload) =
        (true, { cache'.dropAll gone with counters := cache'.counters.evict count }.insert key payload) := by
  by_cases hroom : cache.MakesRoom payload.size
  · obtain ⟨count, hcount, hput⟩ := hstamped.exists_put key hroom
    obtain ⟨count', hcount', hput'⟩ := hstamped'.exists_put key ((h.makesRoom_iff _).mpr hroom)
    have horder : cache'.inOrder uses = cache.inOrder uses := by simp only [inOrder, h.contains]
    rw [horder] at hcount' hput'
    obtain rfl := hcount'.unique (h.suffices hcount)
    rw [counters_dropAll] at hput hput'
    exact ⟨_, _, hput, hput'⟩
  · have hcalm : ∀ cache : TileCache, payload.size ≤ cache.settings.capacity → ¬cache.MakesRoom payload.size →
        cache.put key (some payload) =
          (true, { cache.dropAll [] with counters := cache.counters.evict 0 }.insert key payload) := by
      intro cache hsize hroom
      simp only [put]
      rw [if_neg (Nat.not_lt.mpr hsize), if_neg fun hcrowded => hroom ⟨hsize, hcrowded⟩]
      rfl
    exact ⟨[], 0, hcalm cache hsize hroom, hcalm cache' (h.settings ▸ hsize) fun hroom' => hroom ((h.makesRoom_iff _).mp hroom')⟩

/-! ## Misses that are counted twice -/

/-- Two caches that have served the same calls, so many of them for a tile, of which the second has counted every miss
twice. -/
structure MissesTwice (gets : Nat) (cache locked : TileCache) : Prop where
  alike : Alike cache locked
  stamped : ∃ uses : List TileKey, Stamped uses cache ∧ Stamped uses locked
  counters : locked.counters = { cache.counters with misses := 2 * cache.counters.misses }
  lookUps : cache.counters.lookUps = gets
  /-- Nothing is cached before the first miss. -/
  unused : cache.counters.misses = 0 → gets = 0 ∧ ∀ key : TileKey, cache.payload? key = none

variable {gets : Nat} {locked : TileCache} {key : TileKey} {payload : Payload}

/-- Two empty caches are alike, and neither has missed yet. -/
theorem missesTwice_empty (settings : CacheSettings) : MissesTwice 0 (empty settings) (empty settings) where
  alike := ⟨rfl, fun _ => rfl⟩
  stamped := ⟨[], stamped_empty settings, stamped_empty settings⟩
  counters := rfl
  lookUps := rfl
  unused _ := ⟨rfl, fun _ => by simp [payload?, empty]⟩

/-- A tile that is found is found in both. -/
theorem MissesTwice.hit (h : MissesTwice gets cache locked) (hkey : cache.payload? key = some payload) :
    MissesTwice (gets + 1) (cache.get key).2 (locked.get key).2 := by
  obtain ⟨uses, hstamped, hstamped'⟩ := h.stamped
  obtain ⟨cached, hcached, -⟩ := Option.map_eq_some_iff.mp hkey
  obtain ⟨cached', hcached', -⟩ := Option.map_eq_some_iff.mp ((h.alike.payload key).trans hkey)
  refine ⟨⟨?_, fun other => ?_⟩, ⟨_, hstamped.get_of_some hcached, hstamped'.get_of_some hcached'⟩, ?_, ?_, fun hmisses => ?_⟩
  · simp only [get_of_some hcached, get_of_some hcached', h.alike.settings]
  · simp only [payload?_get, h.alike.payload]
  · simp only [get_of_some hcached, get_of_some hcached', CacheCounters.hit, h.counters]
  · have hlookUps := h.lookUps
    simp only [get_of_some hcached, CacheCounters.lookUps, CacheCounters.hit] at *
    omega
  · simp only [get_of_some hcached, CacheCounters.hit] at hmisses
    simp [(h.unused hmisses).2 key] at hkey

/-- A tile that is not found is looked up again where there are locks. -/
theorem MissesTwice.miss (h : MissesTwice gets cache locked) (hkey : cache.payload? key = none) :
    MissesTwice (gets + 1) (cache.get key).2 ((locked.get key).2.get key).2 := by
  obtain ⟨uses, hstamped, hstamped'⟩ := h.stamped
  have hnone := Option.map_eq_none_iff.mp hkey
  have hnone' : locked.entries[key]? = none := Option.map_eq_none_iff.mp ((h.alike.payload key).trans hkey)
  have hagain : (locked.get key).2.entries[key]? = none := by rwa [get_of_none hnone']
  refine ⟨⟨?_, fun other => ?_⟩, ⟨uses, hstamped.get_of_none hnone, (hstamped'.get_of_none hnone').get_of_none hagain⟩, ?_, ?_,
    fun hmisses => ?_⟩
  · rw [get_of_none hagain, get_of_none hnone', get_of_none hnone]
    exact h.alike.settings
  · simp only [payload?_get, h.alike.payload]
  · rw [get_of_none hagain, get_of_none hnone', get_of_none hnone]
    simp only [CacheCounters.miss, h.counters, Nat.mul_add]
  · have hlookUps := h.lookUps
    simp only [get_of_none hnone, CacheCounters.lookUps, CacheCounters.miss] at *
    omega
  · simp [get_of_none hnone, CacheCounters.miss] at hmisses

/-- After a miss a payload may be put in. -/
theorem MissesTwice.put (h : MissesTwice gets cache locked) (hmisses : cache.counters.misses ≠ 0) (key : TileKey)
    (payload : Payload) : MissesTwice gets (cache.put key (some payload)).2 (locked.put key (some payload)).2 := by
  by_cases hsize : cache.settings.capacity < payload.size
  · rw [put_of_large hsize, put_of_large (h.alike.settings ▸ hsize)]
    exact h
  · obtain ⟨uses, hstamped, hstamped'⟩ := h.stamped
    obtain ⟨gone, count, hput, hput'⟩ := h.alike.exists_put hstamped hstamped' key (Nat.not_lt.mp hsize)
    have hstamp := hstamped.perform (.put key (some payload))
    have hstamp' := hstamped'.perform (.put key (some payload))
    simp only [CacheStep.uses, TileCache.perform, hput, hput', if_true] at hstamp hstamp'
    rw [hput, hput']
    have hinsert := (h.alike.dropAll gone).insert key payload
    exact {
      alike := ⟨hinsert.settings, hinsert.payload⟩
      stamped := ⟨_, hstamp, hstamp'⟩
      counters := congrArg (fun counters => (counters.evict count).insert) h.counters
      lookUps := h.lookUps
      unused := fun hnone => absurd hnone hmisses }

/-- A change of a cache that takes tiles out of it, as many as it counts. -/
structure Drops (drop : TileCache → TileCache) : Prop where
  perform : ∃ step : CacheStep, ∀ cache : TileCache, drop cache = cache.perform step ∧ step.uses cache = []
  forgets : ∃ doomed : TileKey → Bool, Forgets doomed drop
  counters : ∀ cache : TileCache, (drop cache).settings = cache.settings ∧
    (drop cache).counters = cache.counters.invalidate (cache.entries.size - (drop cache).entries.size)

/-- To remove the tiles of a kind drops entries and adds none. -/
theorem drops_removeWhere (invalid : TileKey → Bool) : Drops fun cache => (cache.removeWhere invalid).2 where
  perform := ⟨.removeWhere invalid, fun _ => ⟨rfl, rfl⟩⟩
  forgets := ⟨invalid, forgets_removeWhere invalid⟩
  counters _ := ⟨rfl, rfl⟩

/-- To clear the cache drops entries and adds none. -/
theorem drops_clear : Drops clear where
  perform := ⟨.clear, fun _ => ⟨rfl, rfl⟩⟩
  forgets := ⟨fun _ => true, fun cache key => payload?_clear cache key⟩
  counters cache := ⟨rfl, by simp [clear]⟩

/-- To remove one tile drops at most an entry and adds none. -/
theorem drops_remove (key : TileKey) : Drops fun cache => (cache.remove key).2 where
  perform := ⟨.remove key, fun _ => ⟨rfl, rfl⟩⟩
  forgets := ⟨_, forgets_remove key⟩
  counters cache := by
    unfold remove
    split
    · rename_i hkey
      have hsize := size_erase_of_contains hkey
      refine ⟨rfl, congrArg cache.counters.invalidate ?_⟩
      dsimp only
      omega
    · exact ⟨rfl, by simp [CacheCounters.invalidate]⟩

/-- The same tiles are taken out of both. -/
theorem MissesTwice.drop (h : MissesTwice gets cache locked) {drop : TileCache → TileCache} (hdrop : Drops drop) :
    MissesTwice gets (drop cache) (drop locked) := by
  obtain ⟨uses, hstamped, hstamped'⟩ := h.stamped
  obtain ⟨step, hperform⟩ := hdrop.perform
  obtain ⟨doomed, hforgets⟩ := hdrop.forgets
  have halike : Alike (drop cache) (drop locked) := by
    refine ⟨?_, fun key => ?_⟩
    · rw [(hdrop.counters locked).1, (hdrop.counters cache).1, h.alike.settings]
    · simp only [hforgets _ key, h.alike.payload]
  have hcounters := (hdrop.counters cache).2
  refine ⟨halike, ⟨uses, ?_, ?_⟩, ?_, ?_, fun hmisses => ?_⟩
  · have hstamp := hstamped.perform step
    rwa [(hperform cache).2, List.append_nil, ← (hperform cache).1] at hstamp
  · have hstamp := hstamped'.perform step
    rwa [(hperform locked).2, List.append_nil, ← (hperform locked).1] at hstamp
  · rw [hcounters, (hdrop.counters locked).2, h.counters, halike.size, h.alike.size]
    rfl
  · rw [hcounters]
    exact h.lookUps
  · rw [hcounters] at hmisses
    obtain ⟨hgets, hnone⟩ := h.unused hmisses
    exact ⟨hgets, fun key => by simp [hforgets _ key, hnone]⟩

/-- The reports of the two. -/
theorem MissesTwice.report (h : MissesTwice gets cache locked) : locked.report =
    { cache.report with counters := { cache.counters with misses := 2 * cache.counters.misses } } := by
  simp only [TileCache.report, h.counters, h.alike.size, h.alike.bytes, h.alike.settings]

end TileCache

end TileDepot
