import Mathlib.Data.List.Dedup
import Mathlib.Data.List.Pairwise
import TileDepot.Proofs.Cache.Payloads

/-!
# What goes first from a cache

Every use of a tile is stamped with a tick of its own, so the stamps put the cached tiles in the order of their last uses, in
whatever order they are listed. An eviction takes tiles from the beginning of this order, and no more of them than it needs.
Otherwise a tile leaves a cache only when it is removed or replaced.
-/

namespace TileDepot

/-- The tiles that a step uses: the one that is looked up and found, or the one whose payload goes in. -/
def CacheStep.uses (cache : TileCache) : CacheStep → List TileKey
  | .get key => if cache.contains key then [key] else []
  | .put key payload => if (cache.put key payload).1 then [key] else []
  | _ => []

namespace TileCache

/-- A cache that has come from an empty one, and the tiles that were used on the way, the last use last. -/
inductive Used (settings : CacheSettings) : List TileKey → TileCache → Prop where
  | empty : Used settings [] (empty settings)
  | step {uses : List TileKey} {cache : TileCache} (h : Used settings uses cache) (step : CacheStep) :
    Used settings (uses ++ step.uses cache) (cache.perform step)
  | reset {uses : List TileKey} {cache : TileCache} (h : Used settings uses cache) : Used settings uses cache.resetCounters

/-- The cached tiles in the order of their last uses, of all uses that there were. -/
def inOrder (cache : TileCache) (uses : List TileKey) : List TileKey := uses.dedup.filter cache.contains

/-- The cache without some tiles. -/
def dropAll (cache : TileCache) (keys : List TileKey) : TileCache := keys.foldl dropEntry cache

/-- The least number of tiles that an eviction has to take from an order, to leave the cache filled no more than to the low mark;
all of them, if that is not enough. -/
structure Suffices (cache : TileCache) (order : List TileKey) (count : Nat) : Prop where
  le : count ≤ order.length
  needed : ∀ fewer < count, (cache.dropAll (order.take fewer)).isAboveLow = true
  enough : count = order.length ∨ ¬(cache.dropAll (order.take count)).isAboveLow = true

/-- Whether room is made for some bytes before they go in. -/
def MakesRoom (cache : TileCache) (incoming : Nat) : Prop :=
  incoming ≤ cache.settings.capacity ∧ cache.isCrowded incoming = true

/-- Why a tile leaves a cache in a step. -/
inductive Leaves (uses : List TileKey) (cache : TileCache) (key : TileKey) : CacheStep → Prop where
  /-- It is among the first in the order of the last uses, when room is made for another. -/
  | evicted {other : TileKey} {payload : Payload} {count : Nat} (hroom : cache.MakesRoom payload.size)
    (hcount : cache.Suffices (cache.inOrder uses) count) (hkey : key ∈ (cache.inOrder uses).take count) :
    Leaves uses cache key (.put other (some payload))
  /-- A payload goes in that replaces its own. -/
  | replaced {payload : Payload} (hsize : payload.size ≤ cache.settings.capacity) : Leaves uses cache key (.put key (some payload))
  | removed : Leaves uses cache key (.remove key)
  | invalid {invalid : TileKey → Bool} (hkey : invalid key = true) : Leaves uses cache key (.removeWhere invalid)
  | layer : Leaves uses cache key (.removeLayer key.layer)
  | range {range : TileRange} (hkey : range.contains key = true) : Leaves uses cache key (.removeRange range)
  | cleared : Leaves uses cache key .clear

variable {cache cache' : TileCache} {uses : List TileKey} {key : TileKey}

/-! ## Tiles dropped -/

/-- The entries that are dropped are gone, and the others stay what they are. -/
theorem getElem?_dropAll (cache : TileCache) (keys : List TileKey) (key : TileKey) :
    (cache.dropAll keys).entries[key]? = if key ∈ keys then none else cache.entries[key]? := by
  induction keys generalizing cache with
  | nil => simp [dropAll]
  | cons first rest ih =>
    change ((cache.dropEntry first).dropAll rest).entries[key]? = _
    rw [ih, entries_dropEntry, Table.getElem?_erase]
    by_cases hrest : key ∈ rest
    · simp [hrest]
    · by_cases hfirst : first = key
      · simp [hfirst]
      · simp [hrest, hfirst, Ne.symm hfirst]

/-- Tiles are evicted in turn up to the first moment at which the cache is filled no more than to the low mark. -/
theorem exists_suffices (cache : TileCache) (keys : List TileKey) :
    ∃ count, cache.Suffices keys count ∧ cache.evictWhile keys = (cache.dropAll (keys.take count), count) := by
  induction keys generalizing cache with
  | nil => exact ⟨0, ⟨le_rfl, fun fewer h => absurd h (Nat.not_lt_zero fewer), Or.inl rfl⟩, rfl⟩
  | cons first rest ih =>
    by_cases habove : cache.isAboveLow = true
    · obtain ⟨count, hcount, hevict⟩ := ih (cache.dropEntry first)
      refine ⟨count + 1, ⟨Nat.succ_le_succ hcount.le, fun fewer hfewer => ?_, ?_⟩, ?_⟩
      · cases fewer with
        | zero => exact habove
        | succ fewer => exact hcount.needed fewer (Nat.lt_of_succ_lt_succ hfewer)
      · rcases hcount.enough with hall | hlow
        · exact Or.inl (congrArg Nat.succ hall)
        · exact Or.inr hlow
      · rw [evictWhile, if_pos habove, hevict]
        rfl
    · refine ⟨0, ⟨Nat.zero_le _, fun fewer h => absurd h (Nat.not_lt_zero fewer), Or.inr habove⟩, ?_⟩
      rw [evictWhile_of_not_above habove]
      rfl

/-- There is only one such number. -/
theorem Suffices.unique {order : List TileKey} {count count' : Nat} (h : cache.Suffices order count)
    (h' : cache.Suffices order count') : count = count' := by
  have hle : ∀ {count count' : Nat}, cache.Suffices order count → cache.Suffices order count' → count' ≤ count := by
    intro count count' h h'
    by_contra hlt
    rcases h.enough with hall | hlow
    · exact absurd h'.le (by omega)
    · exact hlow (h'.needed count (Nat.not_le.mp hlt))
  exact le_antisymm (hle h' h) (hle h h')

/-! ## Stamps -/

/-- Of two tiles the first was used before the second, as far as both are cached. -/
def Before (cache : TileCache) (key key' : TileKey) : Prop :=
  ∀ cached cached' : CachedTile, cache.entries[key]? = some cached → cache.entries[key']? = some cached' →
    cached.lastUse < cached'.lastUse

/-- Of two tiles the first was not used after the second, as far as both are cached. -/
def NotAfter (cache : TileCache) (key key' : TileKey) : Prop :=
  ∀ cached cached' : CachedTile, cache.entries[key]? = some cached → cache.entries[key']? = some cached' →
    cached.lastUse ≤ cached'.lastUse

/-- A cache whose stamps tell the order of the last uses. -/
structure Stamped (uses : List TileKey) (cache : TileCache) : Prop where
  used : ∀ {key : TileKey} {cached : CachedTile}, cache.entries[key]? = some cached → key ∈ uses
  below : ∀ {key : TileKey} {cached : CachedTile}, cache.entries[key]? = some cached → cached.lastUse < cache.tick
  ordered : uses.dedup.Pairwise cache.Before

/-- An empty cache is stamped by no uses. -/
theorem stamped_empty (settings : CacheSettings) : Stamped [] (empty settings) := by
  refine ⟨fun h => ?_, fun h => ?_, List.Pairwise.nil⟩ <;> simp [empty] at h

/-- Tiles may leave, and ticks may pass. -/
theorem Stamped.shrink (h : Stamped uses cache) (htick : cache.tick ≤ cache'.tick)
    (hentries : ∀ (key : TileKey) (cached : CachedTile), cache'.entries[key]? = some cached → cache.entries[key]? = some cached) :
    Stamped uses cache' where
  used hkey := h.used (hentries _ _ hkey)
  below hkey := (h.below (hentries _ _ hkey)).trans_le htick
  ordered := h.ordered.imp fun hab cached cached' hkey hkey' => hab cached cached' (hentries _ _ hkey) (hentries _ _ hkey')

/-- The tile that was used last comes last, and the others stay in their order. -/
theorem dedup_concat (uses : List TileKey) (key : TileKey) : (uses ++ [key]).dedup = uses.dedup.erase key ++ [key] := by
  induction uses with
  | nil => simp
  | cons first rest ih =>
    rw [List.cons_append]
    by_cases hrest : first ∈ rest
    · rw [List.dedup_cons_of_mem (List.mem_append_left _ hrest), List.dedup_cons_of_mem hrest, ih]
    · rw [List.dedup_cons_of_notMem hrest]
      by_cases hkey : first = key
      · subst hkey
        rw [List.dedup_cons_of_mem (by simp), ih, List.erase_cons_head, List.erase_of_not_mem (by simpa using hrest)]
      · rw [List.dedup_cons_of_notMem (by simp [hrest, hkey]), ih, List.erase_cons_tail (by simpa using hkey), List.cons_append]

/-- A tile is stamped with the next tick when it is used. -/
theorem Stamped.stamp (h : Stamped uses cache) {cached : CachedTile} (hstamp : cached.lastUse = cache.tick)
    (hentries : cache'.entries = cache.entries.insert key cached) (htick : cache'.tick = cache.tick + 1) :
    Stamped (uses ++ [key]) cache' := by
  have hold : ∀ {other : TileKey} {cached' : CachedTile}, key ≠ other → cache'.entries[other]? = some cached' →
      cache.entries[other]? = some cached' := by
    intro other cached' hne hother
    rwa [hentries, Table.getElem?_insert, if_neg hne] at hother
  have hnew : cache'.entries[key]? = some cached := by
    rw [hentries, Table.getElem?_insert, if_pos rfl]
  refine ⟨fun {other cached'} hother => ?_, fun {other cached'} hother => ?_, ?_⟩
  · by_cases hne : key = other
    · simp [hne]
    · exact List.mem_append_left _ (h.used (hold hne hother))
  · rw [htick]
    by_cases hne : key = other
    · subst hne
      rw [← Option.some.inj (hnew.symm.trans hother), hstamp]
      exact Nat.lt_succ_self _
    · exact (h.below (hold hne hother)).trans (Nat.lt_succ_self _)
  · -- all but the tile itself were stamped before
    rw [dedup_concat]
    have hothers : ∀ other ∈ uses.dedup.erase key, key ≠ other := by
      rintro other hother rfl
      exact (List.nodup_dedup uses).not_mem_erase hother
    refine List.pairwise_append.mpr ⟨?_, List.pairwise_singleton _ _, fun other hother last hlast => ?_⟩
    · refine (h.ordered.sublist List.erase_sublist).imp_of_mem fun ha hb hab cached cached' hkey hkey' => ?_
      exact hab cached cached' (hold (hothers _ ha) hkey) (hold (hothers _ hb) hkey')
    · obtain rfl := List.mem_singleton.mp hlast
      intro cached' cached'' hkey hkey'
      rw [← Option.some.inj (hnew.symm.trans hkey'), hstamp]
      exact h.below (hold (hothers other hother) hkey)

/-- Of two cached tiles one was used after the other. -/
theorem Stamped.eq_of_lastUse_eq (h : Stamped uses cache) {key key' : TileKey} {cached cached' : CachedTile}
    (hkey : cache.entries[key]? = some cached) (hkey' : cache.entries[key']? = some cached')
    (heq : cached.lastUse = cached'.lastUse) : key = key' := by
  by_contra hne
  have hsymm : Std.Symm fun key key' => cache.Before key key' ∨ cache.Before key' key := ⟨fun _ _ => Or.symm⟩
  have heither : uses.dedup.Pairwise fun key key' => cache.Before key key' ∨ cache.Before key' key := h.ordered.imp Or.inl
  rcases heither.forall (List.mem_dedup.mpr (h.used hkey)) (List.mem_dedup.mpr (h.used hkey')) hne with hbefore | hafter
  · exact (hbefore cached cached' hkey hkey').ne heq
  · exact (hafter cached' cached hkey' hkey).ne heq.symm

/-- The tiles in the order of their uses are those that were used and are still cached. -/
theorem mem_inOrder {cache : TileCache} {uses : List TileKey} {key : TileKey} :
    key ∈ cache.inOrder uses ↔ key ∈ uses ∧ ∃ cached, cache.entries[key]? = some cached := by
  rw [inOrder, List.mem_filter, List.mem_dedup, contains, Std.ExtTreeMap.contains_iff_mem, Table.mem_iff_exists]

/-- Entries sorted by their last use come in this order. -/
theorem pairwise_mergeSort_lastUse (entries : List (TileKey × CachedTile)) :
    (entries.mergeSort fun a b => a.2.lastUse ≤ b.2.lastUse).Pairwise fun a b => a.2.lastUse ≤ b.2.lastUse := by
  refine (List.pairwise_mergeSort ?_ ?_ entries).imp of_decide_eq_true <;> simp <;> omega

/-- The tiles by last use are those that are cached. -/
theorem mem_map_byLastUse {cache : TileCache} {key : TileKey} :
    key ∈ cache.byLastUse.map Prod.fst ↔ ∃ cached, cache.entries[key]? = some cached := by
  constructor
  · intro hkey
    obtain ⟨entry, hentry, rfl⟩ := List.mem_map.mp hkey
    exact ⟨entry.2, mem_byLastUse.mp hentry⟩
  · rintro ⟨cached, hkey⟩
    exact List.mem_map.mpr ⟨(key, cached), mem_byLastUse.mpr hkey, rfl⟩

/-- No tile comes twice in the order of last use. -/
theorem nodup_map_byLastUse (cache : TileCache) : (cache.byLastUse.map Prod.fst).Nodup :=
  ((List.mergeSort_perm _ _).map Prod.fst).nodup_iff.mpr (Table.nodup_toList_keys cache.entries)

/-- By their stamps and by their uses the same tiles are put in order. -/
theorem Stamped.perm_inOrder (h : Stamped uses cache) : (cache.byLastUse.map Prod.fst).Perm (cache.inOrder uses) := by
  refine (List.perm_ext_iff_of_nodup cache.nodup_map_byLastUse ((List.nodup_dedup uses).filter _)).mpr fun key => ?_
  rw [mem_map_byLastUse, ← inOrder, mem_inOrder]
  exact ⟨fun ⟨cached, hkey⟩ => ⟨h.used hkey, cached, hkey⟩, And.right⟩

/-- In the order of last use no tile comes after one that was used later. -/
theorem notAfter_byLastUse (cache : TileCache) : (cache.byLastUse.map Prod.fst).Pairwise cache.NotAfter := by
  refine List.pairwise_map.mpr ((pairwise_mergeSort_lastUse _).imp_of_mem fun ha hb hab cached cached' hkey hkey' => ?_)
  rwa [← Option.some.inj ((mem_byLastUse.mp ha).symm.trans hkey), ← Option.some.inj ((mem_byLastUse.mp hb).symm.trans hkey')]

/-- The order that the stamps tell is the order of the last uses. -/
theorem Stamped.map_byLastUse (h : Stamped uses cache) : cache.byLastUse.map Prod.fst = cache.inOrder uses := by
  have hordered : (cache.inOrder uses).Pairwise cache.NotAfter :=
    (h.ordered.filter _).imp fun hlt cached cached' hkey hkey' => (hlt cached cached' hkey hkey').le
  refine List.Perm.eq_of_pairwise (fun key key' hkey hkey' hab hba => ?_) cache.notAfter_byLastUse hordered h.perm_inOrder
  obtain ⟨cached, hcached⟩ := mem_map_byLastUse.mp hkey
  obtain ⟨-, cached', hcached'⟩ := mem_inOrder.mp hkey'
  exact h.eq_of_lastUse_eq hcached hcached' (le_antisymm (hab cached cached' hcached hcached') (hba cached' cached hcached' hcached))

/-- However the entries are listed, there is one way to sort them by their stamps. -/
theorem Stamped.mergeSort_eq (h : Stamped uses cache) {listed : List (TileKey × CachedTile)}
    (hlisted : listed.Perm cache.entries.toList) :
    (listed.mergeSort fun a b => a.2.lastUse ≤ b.2.lastUse) = cache.byLastUse := by
  have hperm : (listed.mergeSort fun a b => a.2.lastUse ≤ b.2.lastUse).Perm cache.byLastUse :=
    (List.mergeSort_perm _ _).trans (hlisted.trans (List.mergeSort_perm _ _).symm)
  refine List.Perm.eq_of_pairwise (fun a b ha hb hab hba => ?_) (pairwise_mergeSort_lastUse listed)
    (pairwise_mergeSort_lastUse _) hperm
  have ha := mem_byLastUse.mp (hperm.mem_iff.mp ha)
  have hb := mem_byLastUse.mp hb
  have hkey := h.eq_of_lastUse_eq ha hb (le_antisymm hab hba)
  rw [hkey] at ha
  exact Prod.ext hkey (Option.some.inj (ha.symm.trans hb))

/-! ## Runs -/

/-- To drop entries does not touch the clock of the cache. -/
theorem tick_dropAll (cache : TileCache) (keys : List TileKey) : (cache.dropAll keys).tick = cache.tick := by
  induction keys generalizing cache with
  | nil => rfl
  | cons first rest ih => exact ih (cache.dropEntry first)

/-- To drop entries counts nothing. -/
theorem counters_dropAll (cache : TileCache) (keys : List TileKey) : (cache.dropAll keys).counters = cache.counters := by
  induction keys generalizing cache with
  | nil => rfl
  | cons first rest ih => exact ih (cache.dropEntry first)

/-- What an eviction takes from the cache comes first in the order of the stamps. -/
theorem exists_evict (cache : TileCache) : ∃ count, cache.Suffices (cache.byLastUse.map Prod.fst) count ∧
    cache.evict = { cache.dropAll ((cache.byLastUse.map Prod.fst).take count) with
      counters := (cache.dropAll ((cache.byLastUse.map Prod.fst).take count)).counters.evict count } := by
  obtain ⟨count, hcount, hevict⟩ := cache.exists_suffices (cache.byLastUse.map Prod.fst)
  refine ⟨count, hcount, ?_⟩
  rw [evict, hevict]

/-- It comes first in the order of the last uses. -/
theorem Stamped.exists_evict (h : Stamped uses cache) : ∃ count, cache.Suffices (cache.inOrder uses) count ∧
    cache.evict = { cache.dropAll ((cache.inOrder uses).take count) with
      counters := (cache.dropAll ((cache.inOrder uses).take count)).counters.evict count } := by
  rw [← h.map_byLastUse]
  exact cache.exists_evict

/-- The stamps still tell the order of the uses after an eviction. -/
theorem Stamped.evict (h : Stamped uses cache) : Stamped uses cache.evict := by
  obtain ⟨count, -, hevict⟩ := h.exists_evict
  rw [hevict]
  refine h.shrink (tick_dropAll cache _).ge fun key cached hkey => ?_
  change (cache.dropAll _).entries[key]? = some cached at hkey
  rw [getElem?_dropAll] at hkey
  split at hkey
  · cases hkey
  · exact hkey

/-- Tiles that are filtered may leave. -/
theorem Stamped.filter (h : Stamped uses cache) {keep : TileKey → CachedTile → Bool}
    (hentries : cache'.entries = cache.entries.filter keep) (htick : cache'.tick = cache.tick) : Stamped uses cache' := by
  refine h.shrink htick.ge fun key cached hkey => ?_
  rw [hentries, Std.ExtTreeMap.getElem?_filter', Option.filter_eq_some_iff] at hkey
  exact hkey.1

/-- A cache contains the tiles that it has an entry of. -/
theorem contains_eq (cache : TileCache) (key : TileKey) : cache.contains key = cache.entries[key]?.isSome :=
  Std.ExtTreeMap.contains_eq_isSome_getElem?

/-- To look for a tile that is not cached is no use of it. -/
theorem Stamped.get_of_none (h : Stamped uses cache) (hkey : cache.entries[key]? = none) : Stamped uses (cache.get key).2 := by
  rw [TileCache.get_of_none hkey]
  exact h.shrink (Nat.le_succ _) fun _ _ => id

/-- To look up a tile that is cached is its latest use. -/
theorem Stamped.get_of_some (h : Stamped uses cache) {cached : CachedTile} (hkey : cache.entries[key]? = some cached) :
    Stamped (uses ++ [key]) (cache.get key).2 := by
  rw [TileCache.get_of_some hkey]
  exact h.stamp rfl rfl rfl

/-- Every step goes on to stamp the tiles in the order of their uses. -/
theorem Stamped.perform (h : Stamped uses cache) (step : CacheStep) :
    Stamped (uses ++ step.uses cache) (cache.perform step) := by
  cases step with
  | get key =>
    rw [CacheStep.uses, contains_eq]
    cases hkey : cache.entries[key]? with
    | none =>
      change Stamped (uses ++ []) (cache.get key).2
      rw [List.append_nil]
      exact h.get_of_none hkey
    | some cached => exact h.get_of_some hkey
  | put key payload =>
    cases payload with
    | none =>
      change Stamped (uses ++ []) cache
      rwa [List.append_nil]
    | some payload =>
      simp only [CacheStep.uses, TileCache.perform, put]
      by_cases hsize : payload.size > cache.settings.capacity
      · simpa [hsize] using h
      · simp only [if_neg hsize, if_true]
        split
        · exact h.evict.stamp rfl rfl rfl
        · exact h.stamp rfl rfl rfl
  | remove key =>
    simp only [CacheStep.uses, TileCache.perform, List.append_nil]
    refine h.shrink ?_ fun other cached hother => ?_
    · unfold remove
      split <;> exact le_rfl
    · rw [entries_remove, Table.getElem?_erase] at hother
      split at hother
      · cases hother
      · exact hother
  | removeWhere | removeLayer | removeRange =>
    simp only [CacheStep.uses, List.append_nil]
    exact h.filter rfl rfl
  | clear =>
    simp only [CacheStep.uses, List.append_nil]
    refine h.shrink le_rfl fun key cached hkey => ?_
    simp [TileCache.perform, clear] at hkey

/-- The tiles that some steps use, one after the other. -/
def usesOf (cache : TileCache) : List CacheStep → List TileKey
  | [] => []
  | step :: steps => step.uses cache ++ usesOf (cache.perform step) steps

/-- A cache that serves steps is used by them after all that has used it before. -/
theorem Used.serve {settings : CacheSettings} (h : Used settings uses cache) (steps : List CacheStep) :
    Used settings (uses ++ cache.usesOf steps) (cache.serve steps) := by
  induction steps generalizing uses cache with
  | nil =>
    rw [usesOf, List.append_nil]
    exact h
  | cons step steps ih =>
    rw [usesOf, ← List.append_assoc]
    exact ih (h.step step)

/-- A cache is stamped by whatever has used it. -/
theorem Used.stamped {settings : CacheSettings} (h : Used settings uses cache) : Stamped uses cache := by
  induction h with
  | empty => exact stamped_empty settings
  | step _ step ih => exact ih.perform step
  | reset _ ih => exact ih.shrink le_rfl fun _ _ => id

/-! ## Tiles that leave -/

/-- A payload goes in after an eviction, where room is made for it. -/
theorem Stamped.exists_put (h : Stamped uses cache) (key : TileKey) {payload : Payload} (hroom : cache.MakesRoom payload.size) :
    ∃ count, cache.Suffices (cache.inOrder uses) count ∧ cache.put key (some payload) =
      (true, { cache.dropAll ((cache.inOrder uses).take count) with
        counters := (cache.dropAll ((cache.inOrder uses).take count)).counters.evict count }.insert key payload) := by
  obtain ⟨count, hcount, hevict⟩ := h.exists_evict
  refine ⟨count, hcount, ?_⟩
  simp only [put, if_neg (Nat.not_lt.mpr hroom.1), if_pos hroom.2, hevict]

/-- The tiles that are left were used after all that went. -/
theorem Stamped.lastUse_lt (h : Stamped uses cache) {count : Nat} {gone left : TileKey} {cached cached' : CachedTile}
    (hgone : gone ∈ (cache.inOrder uses).take count) (hcached : cache.entries[gone]? = some cached)
    (hleft : (cache.dropAll ((cache.inOrder uses).take count)).entries[left]? = some cached') :
    cached.lastUse < cached'.lastUse := by
  rw [getElem?_dropAll] at hleft
  split at hleft
  · cases hleft
  · rename_i hkept
    have hordered := h.ordered.filter cache.contains
    change (cache.inOrder uses).Pairwise _ at hordered
    rw [← List.take_append_drop count (cache.inOrder uses), List.pairwise_append] at hordered
    have hmem : left ∈ (cache.inOrder uses).take count ++ (cache.inOrder uses).drop count := by
      rw [List.take_append_drop]
      exact mem_inOrder.mpr ⟨h.used hleft, cached', hleft⟩
    exact hordered.2.2 gone hgone left ((List.mem_append.mp hmem).resolve_left hkept) cached cached' hcached hleft

/-- A tile stays with its payload when another one is put in, unless it is evicted for it. -/
theorem Stamped.put_other (h : Stamped uses cache) {key other : TileKey} {payload : Payload} (hne : other ≠ key)
    (hkey : cache.payload? key = some payload) (incoming : Payload) :
    (cache.put other (some incoming)).2.payload? key = some payload ∨ Leaves uses cache key (.put other (some incoming)) := by
  by_cases hroom : cache.MakesRoom incoming.size
  · obtain ⟨count, hcount, hput⟩ := h.exists_put other hroom
    by_cases htaken : key ∈ (cache.inOrder uses).take count
    · exact Or.inr (.evicted hroom hcount htaken)
    · left
      rw [hput, payload?_insert, if_neg hne]
      change ((cache.dropAll _).entries[key]?).map CachedTile.payload = some payload
      rw [getElem?_dropAll, if_neg htaken]
      exact hkey
  · left
    simp only [put]
    split
    · exact hkey
    · rename_i hsize
      rw [payload?_insert, if_neg hne, if_neg fun hcrowded => hroom ⟨Nat.not_lt.mp hsize, hcrowded⟩]
      exact hkey

/-- A tile stays with its payload where others are forgotten. -/
theorem Forgets.stays {doomed : TileKey → Bool} {drop : TileCache → TileCache} (h : Forgets doomed drop) {key : TileKey}
    {payload : Payload} (hkey : cache.payload? key = some payload) (hdoomed : ¬doomed key = true) :
    (drop cache).payload? key = some payload := by
  rw [h, if_neg hdoomed]
  exact hkey

/-- A tile that is cached stays so with its payload, unless there is a reason for it to leave. -/
theorem Stamped.stays_or_leaves (h : Stamped uses cache) (step : CacheStep) {key : TileKey} {payload : Payload}
    (hkey : cache.payload? key = some payload) :
    (cache.perform step).payload? key = some payload ∨ Leaves uses cache key step := by
  cases step with
  | get other => exact Or.inl ((payload?_get cache other key).trans hkey)
  | put other incoming =>
    cases incoming with
    | none => exact Or.inl hkey
    | some incoming =>
      by_cases hother : other = key
      · subst hother
        by_cases hsize : cache.settings.capacity < incoming.size
        · left
          rw [TileCache.perform, put_of_large hsize]
          exact hkey
        · exact Or.inr (.replaced (Nat.not_lt.mp hsize))
      · exact h.put_other hother hkey incoming
  | remove other =>
    by_cases hother : key = other
    · subst hother
      exact Or.inr .removed
    · exact Or.inl ((forgets_remove other).stays hkey (mt beq_iff_eq.mp hother))
  | removeWhere invalid =>
    by_cases hinvalid : invalid key = true
    · exact Or.inr (.invalid hinvalid)
    · exact Or.inl ((forgets_removeWhere invalid).stays hkey hinvalid)
  | removeLayer layer =>
    by_cases hlayer : key.layer = layer
    · subst hlayer
      exact Or.inr .layer
    · exact Or.inl ((forgets_removeWhere (·.layer == layer)).stays hkey (mt beq_iff_eq.mp hlayer))
  | removeRange range =>
    by_cases hrange : range.contains key = true
    · exact Or.inr (.range hrange)
    · exact Or.inl ((forgets_removeWhere range.contains).stays hkey hrange)
  | clear => exact Or.inr .cleared

/-- Whatever was done with a cache, its stamps are different from one another and below the next tick, and they put the cached
tiles in the order of their last uses, however these are listed. Where room is made for a payload, the first tiles in this order
are evicted, the least number of them that leaves the cache filled no more than to the low mark, or all; those that are left
were used later. But for that a tile leaves the cache only when it is removed or replaced. -/
theorem least_recent_evicted {settings : CacheSettings} {uses : List TileKey} {cache : TileCache}
    (h : Used settings uses cache) :
    (∀ (key key' : TileKey) (cached cached' : CachedTile), cache.entries[key]? = some cached →
      cache.entries[key']? = some cached' → cached.lastUse < cache.tick ∧ (cached.lastUse = cached'.lastUse → key = key')) ∧
    (∀ listed : List (TileKey × CachedTile), listed.Perm cache.entries.toList →
      (listed.mergeSort fun a b => a.2.lastUse ≤ b.2.lastUse).map Prod.fst = cache.inOrder uses) ∧
    (∀ (key : TileKey) (payload : Payload), cache.MakesRoom payload.size → ∃ (count : Nat) (roomy : TileCache),
      cache.Suffices (cache.inOrder uses) count ∧
        roomy = { cache.dropAll ((cache.inOrder uses).take count) with counters := cache.counters.evict count } ∧
        cache.put key (some payload) = (true, roomy.insert key payload) ∧
        ∀ gone ∈ (cache.inOrder uses).take count, ∀ (cached : CachedTile) (left : TileKey) (cached' : CachedTile),
          cache.entries[gone]? = some cached → roomy.entries[left]? = some cached' → cached.lastUse < cached'.lastUse) ∧
    ∀ (step : CacheStep) (key : TileKey) (payload : Payload), cache.payload? key = some payload →
      (cache.perform step).payload? key = some payload ∨ Leaves uses cache key step := by
  have hstamped := h.stamped
  refine ⟨fun key key' cached cached' hkey hkey' => ⟨hstamped.below hkey, hstamped.eq_of_lastUse_eq hkey hkey'⟩,
    fun listed hlisted => ?_, fun key payload hroom => ?_, fun step key payload => hstamped.stays_or_leaves step⟩
  · rw [hstamped.mergeSort_eq hlisted, hstamped.map_byLastUse]
  · obtain ⟨count, hcount, hput⟩ := hstamped.exists_put key hroom
    rw [counters_dropAll] at hput
    exact ⟨count, _, hcount, rfl, hput, fun gone hgone cached left cached' hcached hleft =>
      hstamped.lastUse_lt hgone hcached hleft⟩

/-- Eight tiles are put in, and the first is looked up. When room is made for a ninth, the three go that come after it. -/
theorem least_recent_evicted_of_eight :
    let tile (x : Nat) : TileKey := ⟨"", "", "", none, x, 0, 0⟩
    let payload : Payload := ⟨⟨#[7]⟩, 0⟩
    let settings : CacheSettings := ⟨10, 0.9, 0.5⟩
    let steps := (List.range 8).map (fun x => CacheStep.put (tile x) (some payload)) ++ [.get (tile 0)]
    let cache := (empty settings).serve steps
    let uses := (empty settings).usesOf steps
    Used settings uses cache ∧ cache.MakesRoom payload.size ∧ cache.inOrder uses = [1, 2, 3, 4, 5, 6, 7, 0].map tile ∧
      ∃ roomy : TileCache, cache.put (tile 8) (some payload) = (true, roomy.insert (tile 8) payload) ∧
        roomy = { cache.dropAll ([1, 2, 3].map tile) with counters := cache.counters.evict 3 } := by
  intro tile payload settings steps cache uses
  have hused : Used settings uses cache := Used.empty.serve steps
  have hroom : cache.MakesRoom payload.size := ⟨by decide +kernel, by decide +kernel⟩
  have horder : cache.inOrder uses = [1, 2, 3, 4, 5, 6, 7, 0].map tile := by decide +kernel
  have hthree : cache.Suffices (cache.inOrder uses) 3 := by
    rw [horder]
    exact ⟨by decide +kernel, by decide +kernel, by decide +kernel⟩
  obtain ⟨count, roomy, hcount, hroomy, hput, -⟩ := (least_recent_evicted hused).2.2.1 (tile 8) payload hroom
  obtain rfl := hcount.unique hthree
  rw [horder] at hroomy
  exact ⟨hused, hroom, horder, roomy, hput, hroomy⟩

end TileCache

end TileDepot
