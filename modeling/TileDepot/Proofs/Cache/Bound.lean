import TileDepot.Proofs.Cache.Steps
import TileDepot.Proofs.Number.Quotients

/-!
# How much a cache holds

An eviction makes room down to the low mark and does not ask how much is to come. So a cache never holds more than its
capacity exactly if, filled to the low mark and no further, it has room for whatever may be put in.
-/

namespace TileDepot

/-- Settings with the capacity of a word and with a high mark that does not exceed one. -/
structure CacheSettings.Sound (settings : CacheSettings) : Prop where
  capacity : settings.capacity ≤ Binary64.maxUInt64
  high : settings.high ≤ 1.0

/-- The capacity of sound settings fits in a word of 64 bits. -/
theorem CacheSettings.Sound.lt {settings : CacheSettings} (h : settings.Sound) : settings.capacity < 2 ^ 64 :=
  h.capacity.trans_lt (by decide)

/-- Above the low mark there is no way below it but to drop bytes. -/
theorem CacheSettings.Sound.above_of_le {settings : CacheSettings} (h : settings.Sound) {bytes bytes' : Nat}
    (habove : (TileCache.empty settings).fillRatio bytes > settings.low) (hle : bytes ≤ bytes')
    (hbytes : bytes' ≤ settings.capacity) (hpos : 0 < settings.capacity) :
    (TileCache.empty settings).fillRatio bytes' > settings.low := by
  have hword := h.lt
  exact Binary64.lt_quotient_of_le hle (by omega) hpos (show settings.capacity < 2 ^ 100 by omega) habove

/-- Filled no more than to the low mark, a cache has room for every payload up to a size, and up to its capacity. -/
def CacheSettings.Roomy (settings : CacheSettings) (limit : Nat) : Prop :=
  ∀ bytes ≤ settings.capacity, ¬(TileCache.empty settings).fillRatio bytes > settings.low →
    bytes + min limit settings.capacity ≤ settings.capacity

instance (settings : CacheSettings) (limit : Nat) : Decidable (settings.Roomy limit) :=
  inferInstanceAs (Decidable (∀ bytes ≤ _, _ → _))

/-- Settings that leave room for payloads of some size leave room for smaller ones. -/
theorem CacheSettings.Roomy.mono {settings : CacheSettings} {limit limit' : Nat} (h : settings.Roomy limit)
    (hlimit : min limit' settings.capacity ≤ limit) : settings.Roomy limit' := by
  intro bytes hbytes hlow
  have hroom := h bytes hbytes hlow
  omega

namespace TileCache

variable {cache : TileCache} {settings : CacheSettings} {limit : Nat}

/-- A cache is above its low mark when its bytes fill too large a part of its capacity. -/
theorem isAboveLow_iff : cache.isAboveLow = true ↔ (empty cache.settings).fillRatio cache.bytes > cache.settings.low :=
  decide_eq_true_iff

/-! ## Within the capacity -/

/-- A cache that would hold more than its capacity is crowded. -/
theorem isCrowded_of_lt (hsound : cache.settings.Sound) {incoming : Nat} (hincoming : incoming ≤ cache.settings.capacity)
    (hbytes : cache.bytes ≤ cache.settings.capacity) (h : cache.settings.capacity < cache.bytes + incoming) :
    cache.isCrowded incoming = true := by
  have hword := hsound.lt
  have hpos : 0 < cache.settings.capacity := by omega
  unfold isCrowded fillRatio
  rw [decide_eq_true_iff]
  exact Binary64.le_quotient_of_le hsound.high h.le (by omega) hpos

/-- A put leaves a cache within its capacity if it has room for what is put in. -/
theorem bytes_put_le (hsound : cache.settings.Sound) (hroomy : cache.settings.Roomy limit)
    (hbytes : cache.bytes ≤ cache.settings.capacity) {key : TileKey} {payload : Option Payload}
    (hpayload : (CacheStep.put key payload).incoming ≤ limit) : (cache.put key payload).2.bytes ≤ cache.settings.capacity := by
  cases payload with
  | none => exact hbytes
  | some payload =>
    unfold put
    dsimp only
    split
    · exact hbytes
    · rename_i hsize
      have hincoming : payload.size ≤ cache.settings.capacity := Nat.not_lt.mp hsize
      change (insert _ key payload).bytes ≤ cache.settings.capacity
      split
      · obtain ⟨hsettings, hevicted, hempty⟩ := cache.evict_spec
        refine (bytes_insert_le _ key payload).trans ?_
        by_cases habove : cache.evict.isAboveLow = true
        · rw [hempty habove]
          omega
        · rw [isAboveLow_iff, hsettings] at habove
          have hroom := hroomy _ (hevicted.trans hbytes) habove
          have hwithin : payload.size ≤ limit := hpayload
          omega
      · rename_i hcrowded
        refine (bytes_insert_le _ key payload).trans ?_
        by_contra hlt
        exact hcrowded (isCrowded_of_lt hsound hincoming hbytes (Nat.not_le.mp hlt))

/-- To put a tile does not touch the settings. -/
theorem settings_put (cache : TileCache) (key : TileKey) (payload : Option Payload) :
    (cache.put key payload).2.settings = cache.settings := by
  cases payload with
  | none => rfl
  | some payload =>
    unfold put
    dsimp only
    split
    · rfl
    · change (insert _ key payload).settings = cache.settings
      rw [settings_insert]
      split
      · exact cache.evict_spec.1
      · rfl

/-- A tile that is looked up stays what it is. -/
theorem bytes_get (cache : TileCache) (key : TileKey) : (cache.get key).2.bytes = cache.bytes := by
  have hbefore := cache.bytes_eq
  have hafter := (cache.get key).2.bytes_eq
  unfold get at hafter ⊢
  cases h : cache.entries[key]? with
  | none => rfl
  | some cached =>
    rw [h] at hafter
    dsimp only at hafter ⊢
    rw [Table.weigh_insert_of_some _ _ h] at hafter
    dsimp only at hafter
    omega

/-- No step touches the settings. -/
theorem settings_perform (cache : TileCache) (step : CacheStep) : (cache.perform step).settings = cache.settings := by
  cases step with
  | get key =>
    unfold perform get
    dsimp only
    split <;> rfl
  | put key payload => exact settings_put cache key payload
  | remove key =>
    unfold perform remove
    dsimp only
    split <;> rfl
  | removeWhere | removeLayer | removeRange | clear => rfl

/-- No step but a put adds bytes. -/
theorem bytes_perform_le (cache : TileCache) {step : CacheStep} (h : ∀ key payload, step ≠ .put key payload) :
    (cache.perform step).bytes ≤ cache.bytes := by
  cases step with
  | get key => exact (bytes_get cache key).le
  | put key payload => exact absurd rfl (h key payload)
  | remove key =>
    unfold perform remove
    dsimp only
    split
    · exact bytes_dropEntry_le cache key
    · exact le_rfl
  | removeWhere | removeLayer | removeRange => exact bytes_filter_le cache _
  | clear =>
    have hempty : cache.clear.bytes = 0 := bytes_eq_zero fun key => Std.ExtTreeMap.not_mem_empty
    change cache.clear.bytes ≤ cache.bytes
    omega

/-- Whatever is done, a cache with room for what may be put in stays within its capacity. -/
theorem bytes_serve_le (hsound : settings.Sound) (hroomy : settings.Roomy limit) :
    ∀ (steps : List CacheStep) {cache : TileCache}, cache.settings = settings → cache.bytes ≤ settings.capacity →
      (∀ step ∈ steps, step.incoming ≤ limit) → (cache.serve steps).bytes ≤ settings.capacity := by
  intro steps
  induction steps with
  | nil => intro cache _ hbytes _; exact hbytes
  | cons step steps ih =>
    intro cache hsettings hbytes hsteps
    subst hsettings
    refine ih (settings_perform cache step) ?_ fun other hother => hsteps other (List.mem_cons_of_mem _ hother)
    by_cases hput : ∃ key payload, step = .put key payload
    · obtain ⟨key, payload, rfl⟩ := hput
      exact bytes_put_le hsound hroomy hbytes (hsteps _ List.mem_cons_self)
    · push Not at hput
      exact (bytes_perform_le cache hput).trans hbytes

/-! ## Beyond the capacity -/

/-- Nothing has to go for a payload that is put into a cache filled no more than to the low mark. -/
theorem put_of_not_above (hlow : ¬cache.isAboveLow = true) {payload : Payload} (hsize : payload.size ≤ cache.settings.capacity)
    (key : TileKey) : ∃ cache' : TileCache, (cache.put key (some payload)).2 = cache'.insert key payload ∧
      cache'.entries = cache.entries := by
  unfold put
  dsimp only
  rw [if_neg (Nat.not_lt.mpr hsize)]
  split
  · exact ⟨cache.evict, rfl, evict_of_not_above hlow⟩
  · exact ⟨cache, rfl, rfl⟩

/-- So a payload for a new tile adds all its bytes. -/
theorem bytes_put_of_not_above (hlow : ¬cache.isAboveLow = true) (payload : Payload)
    (hsize : payload.size ≤ cache.settings.capacity) {key : TileKey} (hnew : cache.entries[key]? = none) :
    (cache.put key (some payload)).2.bytes = cache.bytes + payload.size ∧
      ∀ other, key ≠ other → (cache.put key (some payload)).2.entries[other]? = cache.entries[other]? := by
  obtain ⟨cache', hput, hentries⟩ := put_of_not_above hlow hsize key
  rw [hput]
  refine ⟨?_, fun other hother => ?_⟩
  · rw [bytes_insert_of_none (hentries ▸ hnew), bytes_of_entries_eq hentries]
  · rw [entries_insert, Table.getElem?_insert, if_neg hother, hentries]

/-- The tiles of a row. -/
def tileAt (x : Nat) : TileKey := ⟨"", "", "", none, x, 0, 0⟩

/-- Tiles at different places are different ones. -/
theorem tileAt_ne {x y : Nat} (h : x ≠ y) : tileAt x ≠ tileAt y := by
  intro heq
  simp only [tileAt, TileKey.mk.injEq] at heq
  omega

/-- Payloads of one byte each for the tiles of a row, put in one after the other. -/
def filling (bytes : Nat) : List CacheStep := (List.range bytes).map fun x => .put (tileAt x) (some ⟨⟨#[0]⟩, 0⟩)

/-- Steps are served one after the other. -/
theorem serve_append (cache : TileCache) (steps steps' : List CacheStep) :
    cache.serve (steps ++ steps') = (cache.serve steps).serve steps' := List.foldl_append

/-- Byte by byte a cache is filled up to anything not above the low mark. -/
theorem serve_filling (hsound : settings.Sound) {bytes : Nat} (hbytes : bytes ≤ settings.capacity)
    (hlow : ¬(empty settings).fillRatio bytes > settings.low) : ∀ count ≤ bytes,
      ((empty settings).serve (filling count)).settings = settings ∧
      ((empty settings).serve (filling count)).bytes = count ∧
      ∀ x, count ≤ x → ((empty settings).serve (filling count)).entries[tileAt x]? = none := by
  intro count
  induction count with
  | zero =>
    intro _
    refine ⟨rfl, bytes_eq_zero fun key => Std.ExtTreeMap.not_mem_empty, fun x _ => ?_⟩
    exact Std.ExtTreeMap.getElem?_empty
  | succ count ih =>
    intro hcount
    obtain ⟨hsettings, hcountBytes, hnew⟩ := ih (Nat.le_of_succ_le hcount)
    have hfilling : filling (count + 1) = filling count ++ [.put (tileAt count) (some ⟨⟨#[0]⟩, 0⟩)] := by
      rw [filling, List.range_succ, List.map_append]
      rfl
    rw [hfilling, serve_append]
    generalize (empty settings).serve (filling count) = cache at *
    subst hsettings
    have hnot : ¬cache.isAboveLow = true := by
      rw [isAboveLow_iff, hcountBytes]
      exact fun habove => hlow (hsound.above_of_le habove (Nat.le_of_succ_le hcount) hbytes (by omega))
    obtain ⟨hput, hothers⟩ := bytes_put_of_not_above hnot ⟨⟨#[0]⟩, 0⟩ (show 1 ≤ cache.settings.capacity by omega)
      (hnew count le_rfl)
    refine ⟨settings_put cache _ _, ?_, fun x hx => ?_⟩
    · change (cache.put _ _).2.bytes = count + 1
      rw [hput, hcountBytes]
      rfl
    · change (cache.put _ _).2.entries[tileAt x]? = none
      rw [hothers _ (tileAt_ne (by omega)), hnew x (by omega)]

/-- A cache without room for some payload, filled to the low mark, comes to hold more than its capacity. -/
theorem exists_overfull (hsound : settings.Sound) (h : ¬settings.Roomy limit) :
    ∃ steps : List CacheStep, (∀ step ∈ steps, step.incoming ≤ limit) ∧
      settings.capacity < ((empty settings).serve steps).bytes := by
  unfold CacheSettings.Roomy at h
  push Not at h
  obtain ⟨bytes, hbytes, hlow, hfull⟩ := h
  obtain ⟨hsettings, hcount, hnew⟩ := serve_filling hsound hbytes hlow bytes le_rfl
  have hlimit : 1 ≤ limit := by omega
  refine ⟨filling bytes ++ [.put (tileAt bytes) (some ⟨⟨Array.replicate (min limit settings.capacity) 0⟩, 0⟩)], ?_, ?_⟩
  · intro step hstep
    rcases List.mem_append.mp hstep with hstep | hstep
    · obtain ⟨x, -, rfl⟩ := List.mem_map.mp hstep
      exact hlimit
    · obtain rfl := List.mem_singleton.mp hstep
      change (Array.replicate (min limit settings.capacity) 0).size ≤ limit
      rw [Array.size_replicate]
      exact Nat.min_le_left _ _
  · rw [serve_append]
    generalize (empty settings).serve (filling bytes) = cache at *
    subst hsettings
    have hnot : ¬cache.isAboveLow = true := by
      rw [isAboveLow_iff, hcount]
      exact hlow
    have hsize : (Payload.mk ⟨Array.replicate (min limit cache.settings.capacity) 0⟩ 0).size = min limit cache.settings.capacity :=
      Array.size_replicate
    obtain ⟨hput, -⟩ := bytes_put_of_not_above hnot _ (hsize.trans_le (Nat.min_le_right _ _)) (hnew bytes le_rfl)
    change cache.settings.capacity < (cache.put _ _).2.bytes
    rw [hput, hcount, hsize]
    exact hfull

/-- A cache never holds more than its capacity, whatever is done with payloads up to a size, exactly if it has room for such a
payload when filled to the low mark; and whatever is done at all, exactly if it has room for a payload of its capacity. -/
theorem bounded_iff_roomy (settings : CacheSettings) (hsound : settings.Sound) :
    (∀ limit : Nat, (∀ steps : List CacheStep, (∀ step ∈ steps, step.incoming ≤ limit) →
      ((empty settings).serve steps).bytes ≤ settings.capacity) ↔ settings.Roomy limit) ∧
    ((∀ steps : List CacheStep, ((empty settings).serve steps).bytes ≤ settings.capacity) ↔
      settings.Roomy settings.capacity) := by
  have hempty : (empty settings).bytes ≤ settings.capacity := by
    rw [bytes_eq_zero fun key => Std.ExtTreeMap.not_mem_empty]
    exact Nat.zero_le _
  refine ⟨fun limit => ⟨fun hall => ?_, fun hroomy steps hsteps => ?_⟩, fun hall => ?_, fun hroomy steps => ?_⟩
  · by_contra hnot
    obtain ⟨steps, hwithin, hover⟩ := exists_overfull hsound hnot
    exact absurd (hall steps hwithin) (Nat.not_le.mpr hover)
  · exact bytes_serve_le hsound hroomy steps rfl hempty hsteps
  · by_contra hnot
    obtain ⟨steps, -, hover⟩ := exists_overfull hsound hnot
    exact absurd (hall steps) (Nat.not_le.mpr hover)
  · refine bytes_serve_le hsound (hroomy.mono (Nat.min_le_right (steps.map CacheStep.incoming).sum _)) steps rfl hempty ?_
    exact fun step hstep => List.le_sum_of_mem (List.mem_map_of_mem hstep)

/-- A cache of ten bytes that is emptied down to five: payloads of five bytes and less never make it hold more. -/
theorem bounded_of_halves :
    let settings : CacheSettings := ⟨10, 0.9, 0.5⟩
    settings.Sound ∧ ∀ steps : List CacheStep, (∀ step ∈ steps, step.incoming ≤ 5) →
      ((empty settings).serve steps).bytes ≤ settings.capacity := by
  have hsound : CacheSettings.Sound ⟨10, 0.9, 0.5⟩ := ⟨by decide, by decide +kernel⟩
  exact ⟨hsound, ((bounded_iff_roomy ⟨10, 0.9, 0.5⟩ hsound).1 5).mpr (by decide +kernel)⟩

/-- But five bytes and then ten make it hold fifteen: nothing has to go for the ten. -/
theorem overfull_after_two_puts :
    let settings : CacheSettings := ⟨10, 0.9, 0.5⟩
    let payload (size : Nat) : Payload := ⟨⟨Array.replicate size 0⟩, 0⟩
    0.0 ≤ settings.low ∧ settings.low ≤ settings.high ∧ settings.high ≤ 1.0 ∧
      ((empty settings).serve [.put (tileAt 0) (some (payload 5)), .put (tileAt 1) (some (payload 10))]).bytes = 15 := by
  decide +kernel

end TileCache

end TileDepot
