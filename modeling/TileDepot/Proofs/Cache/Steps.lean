import TileDepot.Cache.TileCache
import TileDepot.Proofs.Table

/-!
# What a cache holds

The bytes that a cache holds are a sum over its entries. Every operation has a law for them: only what is put in adds bytes,
and an eviction goes on until the cache is filled no more than to the low mark, or until it is empty.
-/

namespace TileDepot

/-- What a cache is asked for. -/
inductive CacheStep where
  | get (key : TileKey)
  | put (key : TileKey) (payload : Option Payload)
  | remove (key : TileKey)
  | removeWhere (invalid : TileKey → Bool)
  | removeLayer (layer : String)
  | removeRange (range : TileRange)
  | clear

/-- The bytes that a step puts in. -/
def CacheStep.incoming : CacheStep → Nat
  | put _ (some payload) => payload.size
  | _ => 0

namespace TileCache

/-- The cache after a step. -/
def perform (cache : TileCache) : CacheStep → TileCache
  | .get key => (cache.get key).2
  | .put key payload => (cache.put key payload).2
  | .remove key => (cache.remove key).2
  | .removeWhere invalid => (cache.removeWhere invalid).2
  | .removeLayer layer => (cache.removeLayer layer).2
  | .removeRange range => (cache.removeRange range).2
  | .clear => cache.clear

/-- The cache after some steps. -/
def serve (cache : TileCache) (steps : List CacheStep) : TileCache := steps.foldl perform cache

@[simp] theorem entries_insert (cache : TileCache) (key : TileKey) (payload : Payload) :
    (cache.insert key payload).entries = cache.entries.insert key ⟨payload, cache.tick⟩ := rfl

@[simp] theorem settings_insert (cache : TileCache) (key : TileKey) (payload : Payload) :
    (cache.insert key payload).settings = cache.settings := rfl

@[simp] theorem entries_dropEntry (cache : TileCache) (key : TileKey) :
    (cache.dropEntry key).entries = cache.entries.erase key := rfl

@[simp] theorem settings_dropEntry (cache : TileCache) (key : TileKey) : (cache.dropEntry key).settings = cache.settings := rfl

variable {cache : TileCache} {key : TileKey}

/-- With a tile that is cached one entry goes. -/
theorem size_erase_of_contains (h : cache.contains key = true) : (cache.entries.erase key).size + 1 = cache.entries.size := by
  rw [contains] at h
  have hpos : cache.entries.size ≠ 0 := by
    intro hzero
    rw [Std.ExtTreeMap.eq_empty_iff_size_eq_zero.mpr hzero, Std.ExtTreeMap.contains_empty] at h
    cases h
  rw [Std.ExtTreeMap.size_erase, if_pos h]
  omega

/-! ## Bytes -/

/-- The bytes held, as a sum over the entries. -/
theorem bytes_eq (cache : TileCache) : (cache.bytes : Int) = Table.weigh cache.entries fun _ cached => cached.payload.size := by
  have hfold : ∀ (entries : List (TileKey × CachedTile)) (total : Nat),
      ((entries.foldl (fun total entry => total + entry.2.payload.size) total : Nat) : Int) =
        total + (entries.map fun entry => (entry.2.payload.size : Int)).sum := by
    intro entries
    induction entries with
    | nil => intro total; simp
    | cons entry entries ih =>
      intro total
      rw [List.foldl_cons, ih, List.map_cons, List.sum_cons]
      push_cast
      omega
  unfold bytes payloadBytes Table.weigh
  rw [Std.ExtTreeMap.foldl_eq_foldl_toList, hfold]
  exact Int.zero_add _

/-- The bytes of a cache depend on its entries only. -/
theorem bytes_of_entries_eq {cache' : TileCache} (h : cache'.entries = cache.entries) : cache'.bytes = cache.bytes := by
  rw [bytes, bytes, h]

/-- Without entries there are no bytes. -/
theorem bytes_eq_zero (h : ∀ key, key ∉ cache.entries) : cache.bytes = 0 := by
  have hsum := cache.bytes_eq
  rw [Table.weigh_eq_zero fun key cached hkey => absurd (Table.mem_iff_exists.mpr ⟨cached, hkey⟩) (h key)] at hsum
  omega

/-- A payload for a tile that is not cached. -/
theorem bytes_insert_of_none (h : cache.entries[key]? = none) (payload : Payload) :
    (cache.insert key payload).bytes = cache.bytes + payload.size := by
  have hbefore := cache.bytes_eq
  have hafter := (cache.insert key payload).bytes_eq
  rw [entries_insert, Table.weigh_insert_of_none _ _ h] at hafter
  dsimp only at hafter
  omega

/-- A payload in the place of another. -/
theorem bytes_insert_of_some {old : CachedTile} (h : cache.entries[key]? = some old) (payload : Payload) :
    (cache.insert key payload).bytes + old.payload.size = cache.bytes + payload.size := by
  have hbefore := cache.bytes_eq
  have hafter := (cache.insert key payload).bytes_eq
  rw [entries_insert, Table.weigh_insert_of_some _ _ h] at hafter
  dsimp only at hafter
  omega

/-- An insertion adds no more bytes than those of the payload. -/
theorem bytes_insert_le (cache : TileCache) (key : TileKey) (payload : Payload) :
    (cache.insert key payload).bytes ≤ cache.bytes + payload.size := by
  cases h : cache.entries[key]? with
  | none => rw [bytes_insert_of_none h]
  | some old =>
    have hsum := bytes_insert_of_some h payload
    omega

/-- Entries that are filtered weigh no more than before. -/
theorem bytes_filter_le (cache : TileCache) (keep : TileKey → CachedTile → Bool) :
    payloadBytes (cache.entries.filter keep) ≤ cache.bytes := by
  have hbefore := cache.bytes_eq
  have hafter := ({ cache with entries := cache.entries.filter keep } : TileCache).bytes_eq
  have hsum := Table.weigh_filter_add_filter_not cache.entries keep fun _ cached => (cached.payload.size : Int)
  have hdropped : 0 ≤ Table.weigh (cache.entries.filter fun key cached => !keep key cached) fun _ cached =>
      (cached.payload.size : Int) := Table.weigh_nonneg fun _ _ _ => Int.natCast_nonneg _
  change (payloadBytes (cache.entries.filter keep) : Int) = Table.weigh (cache.entries.filter keep) _ at hafter
  omega

/-- To drop an entry adds no bytes. -/
theorem bytes_dropEntry_le (cache : TileCache) (key : TileKey) : (cache.dropEntry key).bytes ≤ cache.bytes := by
  cases h : cache.entries[key]? with
  | none =>
    refine (bytes_of_entries_eq (Std.ExtTreeMap.ext_getElem? fun other => ?_)).le
    rw [entries_dropEntry, Table.getElem?_erase]
    split
    · rename_i heq
      rw [← heq, h]
    · rfl
  | some old =>
    have hbefore := cache.bytes_eq
    have hafter := (cache.dropEntry key).bytes_eq
    rw [entries_dropEntry, Table.weigh_erase _ h] at hafter
    omega

/-! ## Evictions -/

/-- Tiles evicted in turn. Either the cache is filled no more than to the low mark in the end, or all of them are gone. -/
theorem evictWhile_spec (keys : List TileKey) : ∀ cache : TileCache,
    (cache.evictWhile keys).1.settings = cache.settings ∧ (cache.evictWhile keys).1.bytes ≤ cache.bytes ∧
      (∀ key ∈ (cache.evictWhile keys).1.entries, key ∈ cache.entries) ∧
      ((cache.evictWhile keys).1.isAboveLow = true → ∀ key ∈ keys, key ∉ (cache.evictWhile keys).1.entries) := by
  induction keys with
  | nil =>
    intro cache
    exact ⟨rfl, le_rfl, fun _ h => h, fun _ key hkey => by cases hkey⟩
  | cons first rest ih =>
    intro cache
    rw [evictWhile]
    by_cases habove : cache.isAboveLow = true
    · rw [if_pos habove]
      obtain ⟨hsettings, hbytes, hentries, hgone⟩ := ih (cache.dropEntry first)
      have hfirst : first ∉ ((cache.dropEntry first).evictWhile rest).1.entries := by
        intro h
        have hmem := hentries first h
        rw [entries_dropEntry, Table.mem_iff_exists, Table.getElem?_erase, if_pos rfl] at hmem
        obtain ⟨cached, hcached⟩ := hmem
        cases hcached
      refine ⟨hsettings, hbytes.trans (bytes_dropEntry_le cache first), fun key hkey => ?_, fun hafter key hkey => ?_⟩
      · exact Std.ExtTreeMap.mem_of_mem_erase (hentries key hkey)
      · rcases List.mem_cons.mp hkey with rfl | hrest
        · exact hfirst
        · exact hgone hafter key hrest
    · rw [if_neg habove]
      exact ⟨rfl, le_rfl, fun _ h => h, fun h => absurd h habove⟩

/-- Nothing is evicted from a cache that is filled no more than to the low mark. -/
theorem evictWhile_of_not_above (h : ¬cache.isAboveLow = true) (keys : List TileKey) : cache.evictWhile keys = (cache, 0) := by
  cases keys with
  | nil => rfl
  | cons first rest => rw [evictWhile, if_neg h]

/-- The entries by last use are those of the cache. -/
theorem mem_byLastUse {cache : TileCache} {entry : TileKey × CachedTile} :
    entry ∈ cache.byLastUse ↔ cache.entries[entry.1]? = some entry.2 := by
  rw [byLastUse, List.mem_mergeSort, Table.mem_toList]

/-- After an eviction the cache is filled no more than to the low mark, or empty. -/
theorem evict_spec (cache : TileCache) : cache.evict.settings = cache.settings ∧ cache.evict.bytes ≤ cache.bytes ∧
    (cache.evict.isAboveLow = true → cache.evict.bytes = 0) := by
  obtain ⟨hsettings, hbytes, hentries, hgone⟩ := evictWhile_spec (cache.byLastUse.map (·.1)) cache
  refine ⟨hsettings, hbytes, fun h => bytes_eq_zero fun key hkey => hgone h key ?_ hkey⟩
  obtain ⟨cached, hcached⟩ := Table.mem_iff_exists.mp (hentries key hkey)
  exact List.mem_map.mpr ⟨(key, cached), mem_byLastUse.mpr hcached, rfl⟩

/-- Nothing is evicted from a cache that is not above its low mark. -/
theorem evict_of_not_above (h : ¬cache.isAboveLow = true) : cache.evict.entries = cache.entries := by
  rw [evict, evictWhile_of_not_above h]

end TileCache

end TileDepot
