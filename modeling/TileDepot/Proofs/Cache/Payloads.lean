import TileDepot.Proofs.Cache.Steps

/-!
# The payloads of a cache

Of what a cache holds, a reader sees the payloads. A look-up leaves them as they are, a put adds at most the payload that is
put, whatever is evicted for it, and everything else only takes payloads away.
-/

namespace TileDepot.TileCache

variable {cache : TileCache} {key key' : TileKey} {payload : Payload}

/-- The payload that is cached for a tile. -/
def payload? (cache : TileCache) (key : TileKey) : Option Payload := cache.entries[key]?.map CachedTile.payload

/-- A cache whose payloads are those of some tiles, as far as it holds them. -/
def Reflects (cache : TileCache) (tiles : Std.ExtTreeMap TileKey Payload) : Prop :=
  ∀ (key : TileKey) (payload : Payload), cache.payload? key = some payload → tiles[key]? = some payload

/-- A change that takes the payloads of doomed tiles out of a cache, and no others. -/
def Forgets (doomed : TileKey → Bool) (drop : TileCache → TileCache) : Prop :=
  ∀ (cache : TileCache) (key : TileKey), (drop cache).payload? key = if doomed key then none else cache.payload? key

/-! ## Look-ups -/

/-- A tile that is cached is found, and used. -/
theorem get_of_some {cached : CachedTile} (h : cache.entries[key]? = some cached) :
    cache.get key = (some cached.payload, { cache with
      entries := cache.entries.insert key { cached with lastUse := cache.tick }
      tick := cache.tick + 1
      counters := cache.counters.hit }) := by
  unfold get
  rw [h]

/-- A tile that is not cached is missed. -/
theorem get_of_none (h : cache.entries[key]? = none) :
    cache.get key = (none, { cache with tick := cache.tick + 1, counters := cache.counters.miss }) := by
  unfold get
  rw [h]

/-- A tile is looked up as its payload, if it is cached. -/
theorem get_fst (cache : TileCache) (key : TileKey) : (cache.get key).1 = cache.payload? key := by
  unfold get payload?
  cases cache.entries[key]? <;> rfl

/-- To look a tile up changes no payload. -/
theorem payload?_get (cache : TileCache) (key key' : TileKey) : (cache.get key).2.payload? key' = cache.payload? key' := by
  unfold get payload?
  cases hkey : cache.entries[key]? with
  | none => rfl
  | some cached =>
    dsimp only
    rw [Table.getElem?_insert]
    split
    · rename_i heq
      rw [← heq, hkey]
      rfl
    · rfl

/-! ## Payloads put in -/

/-- What is cached after an entry was dropped was cached before. -/
theorem payload?_dropEntry (h : (cache.dropEntry key).payload? key' = some payload) : cache.payload? key' = some payload := by
  unfold payload? at *
  rw [entries_dropEntry, Table.getElem?_erase] at h
  split at h
  · cases h
  · exact h

/-- Only what was cached before an eviction is cached after it. -/
theorem payload?_evictWhile : ∀ (keys : List TileKey) (cache : TileCache),
    (cache.evictWhile keys).1.payload? key' = some payload → cache.payload? key' = some payload := by
  intro keys
  induction keys with
  | nil => intro cache h; exact h
  | cons first rest ih =>
    intro cache h
    rw [evictWhile] at h
    split at h
    · exact payload?_dropEntry (ih _ h)
    · exact h

/-- A payload that is inserted is cached, and the payloads of the other tiles stay what they are. -/
theorem payload?_insert (cache : TileCache) (key key' : TileKey) (payload : Payload) :
    (cache.insert key payload).payload? key' = if key = key' then some payload else cache.payload? key' := by
  unfold payload?
  rw [entries_insert, Table.getElem?_insert]
  split <;> rfl

/-- After a put a payload is the one that was put, or was cached before. -/
theorem payload?_put {stored : Payload} (h : (cache.put key (some stored)).2.payload? key' = some payload) :
    key = key' ∧ stored = payload ∨ cache.payload? key' = some payload := by
  simp only [put] at h
  split at h
  · exact Or.inr h
  · rw [payload?_insert] at h
    split at h
    · rename_i heq
      exact Or.inl ⟨heq, Option.some.inj h⟩
    · split at h
      · exact Or.inr (payload?_evictWhile _ cache h)
      · exact Or.inr h

/-- A payload that is larger than the capacity is passed over. -/
theorem put_of_large (h : cache.settings.capacity < payload.size) : (cache.put key (some payload)).2 = cache := by
  simp only [put]
  rw [if_pos h]

/-- A payload that is no larger than the capacity is cached once it has been put. -/
theorem payload?_put_self (h : payload.size ≤ cache.settings.capacity) :
    (cache.put key (some payload)).2.payload? key = some payload := by
  simp only [put]
  rw [if_neg (Nat.not_lt.mpr h)]
  exact (payload?_insert _ key key payload).trans (if_pos rfl)

/-! ## Payloads taken out -/

/-- To remove a tile erases its entry. -/
theorem entries_remove (cache : TileCache) (key : TileKey) : (cache.remove key).2.entries = cache.entries.erase key := by
  unfold remove
  split
  · rfl
  · rename_i hmissing
    refine Std.ExtTreeMap.ext_getElem? fun key' => ?_
    rw [Table.getElem?_erase]
    split
    · rename_i heq
      exact heq ▸ Std.ExtTreeMap.getElem?_eq_none_of_contains_eq_false (Bool.eq_false_of_not_eq_true hmissing)
    · rfl

/-- To remove a tile forgets it and no other. -/
theorem forgets_remove (doomed : TileKey) : Forgets (fun key => key == doomed) fun cache => (cache.remove doomed).2 := by
  intro cache key
  unfold payload?
  rw [entries_remove, Table.getElem?_erase]
  by_cases hkey : doomed = key
  · rw [if_pos hkey, if_pos (beq_iff_eq.mpr hkey.symm)]
    rfl
  · rw [if_neg hkey, if_neg fun heq => hkey (beq_iff_eq.mp heq).symm]

/-- To remove the tiles of a kind forgets these and no others. -/
theorem forgets_removeWhere (doomed : TileKey → Bool) : Forgets doomed fun cache => (cache.removeWhere doomed).2 := by
  intro cache key
  change ((cache.entries.filter fun key _ => !doomed key)[key]?).map CachedTile.payload = _
  rw [Std.ExtTreeMap.getElem?_filter']
  unfold payload?
  cases cache.entries[key]? <;> cases doomed key <;> rfl

/-- Nothing is cached once the cache is cleared. -/
theorem payload?_clear (cache : TileCache) (key : TileKey) : cache.clear.payload? key = none := by
  simp [clear, payload?]

/-! ## Caches that reflect tiles -/

variable {tiles tiles' : Std.ExtTreeMap TileKey Payload}

/-- An empty cache reflects any tiles. -/
theorem reflects_empty (settings : CacheSettings) (tiles : Std.ExtTreeMap TileKey Payload) :
    (empty settings).Reflects tiles := by
  intro key payload h
  simp [empty, payload?] at h

/-- A cache that is cleared reflects any tiles. -/
theorem reflects_clear (cache : TileCache) (tiles : Std.ExtTreeMap TileKey Payload) : cache.clear.Reflects tiles := by
  intro key payload h
  rw [payload?_clear] at h
  cases h

/-- A cache reflects the same tiles after a look-up. -/
theorem Reflects.get (h : cache.Reflects tiles) (key : TileKey) : (cache.get key).2.Reflects tiles :=
  fun key' payload hpayload => h key' payload (payload?_get cache key key' ▸ hpayload)

/-- The payload of a tile may be cached for it. -/
theorem Reflects.put (h : cache.Reflects tiles) (hkey : tiles[key]? = some payload) :
    (cache.put key (some payload)).2.Reflects tiles := by
  intro key' payload' hpayload
  rcases payload?_put hpayload with ⟨rfl, rfl⟩ | hold
  · exact hkey
  · exact h key' payload' hold

/-- A cache that has forgotten the tiles that changed reflects the tiles after the change. -/
theorem Reflects.forget {doomed : TileKey → Bool} {drop : TileCache → TileCache} (h : cache.Reflects tiles)
    (hdrop : Forgets doomed drop) (hkept : ∀ (key : TileKey) (payload : Payload), doomed key = false →
      tiles[key]? = some payload → tiles'[key]? = some payload) : (drop cache).Reflects tiles' := by
  intro key payload hpayload
  rw [hdrop] at hpayload
  split at hpayload
  · cases hpayload
  · rename_i hdoomed
    exact hkept key payload (Bool.eq_false_of_not_eq_true hdoomed) (h key payload hpayload)

end TileDepot.TileCache
