import TileDepot.Cache.PartitionedMap
import TileDepot.Proofs.Table

/-!
# A partitioned map is a map

Whatever the hash, each part of a partitioned map holds the entries of an ordinary table whose keys belong to it, and its count
and its weight are those of its entries. One step changes one part, or all of them alike, in the way in which it changes the
table; so the map answers as the table does, and its totals are those of the table, as far as a word holds them. Nothing is taken
from a counter that is not in it while the entries of its part weigh less than a word holds.
-/

namespace TileDepot

variable {κ α : Type}

/-- What a map is asked for. -/
inductive MapStep (κ α : Type) where
  | insert (key : κ) (value : α)
  | get (key : κ)
  | remove (key : κ)
  | update (key : κ) (change : α → α)
  | retain (keep : κ → α → Bool)
  | clear

/-- What an answer to a step is: the value that was there; whether there was one; how many entries were dropped. -/
abbrev MapStep.Answer : MapStep κ α → Type
  | insert .. | get _ | remove _ => Option α
  | update .. => Bool
  | retain _ => Nat
  | clear => Unit

variable [Ord κ] [Std.TransOrd κ]

/-- A step on an ordinary table. -/
def MapStep.onTable (table : Std.ExtTreeMap κ α) : (step : MapStep κ α) → step.Answer × Std.ExtTreeMap κ α
  | .insert key value => (table[key]?, table.insert key value)
  | .get key => (table[key]?, table)
  | .remove key => (table[key]?, table.erase key)
  | .update key change => (table.contains key, table.modify key change)
  | .retain keep => (table.size - (table.filter keep).size, table.filter keep)
  | .clear => ((), ∅)

namespace PartitionedMap

/-- A step on a map. -/
def perform (hash : κ → Nat) (weigh : α → UInt64) (map : PartitionedMap κ α) :
    (step : MapStep κ α) → step.Answer × PartitionedMap κ α
  | .insert key value => let (map, old) := map.insert hash weigh key value; (old, map)
  | .get key => (map.get? hash key, map)
  | .remove key => let (map, old) := map.remove hash weigh key; (old, map)
  | .update key change => let (map, found) := map.update hash weigh key change; (found, map)
  | .retain keep => let (map, dropped) := map.retain weigh keep; (dropped, map)
  | .clear => ((), map.clear)

/-- The map after some steps. -/
def serve (hash : κ → Nat) (weigh : α → UInt64) (map : PartitionedMap κ α) (steps : List (MapStep κ α)) : PartitionedMap κ α :=
  steps.foldl (fun map step => (map.perform hash weigh step).2) map

end PartitionedMap

/-- Words add up to the sum of their values, as far as a word holds it. -/
theorem toNat_addUp (totals : List UInt64) : (addUp totals).toNat = (totals.map UInt64.toNat).sum % 2 ^ 64 := by
  have hfrom : ∀ start : UInt64, (totals.foldl (fun sum total => sum + total) start).toNat =
      (start.toNat + (totals.map UInt64.toNat).sum) % 2 ^ 64 := by
    induction totals with
    | nil => exact fun start => (Nat.mod_eq_of_lt start.toNat_lt).symm
    | cons total totals ih =>
      intro start
      rw [List.foldl_cons, ih, UInt64.toNat_add, List.map_cons, List.sum_cons]
      omega
  exact (hfrom 0).trans (by simp)

/-! ## What entries weigh -/

/-- What the entries of a table weigh together, beyond what a word holds too. -/
def load (weigh : α → UInt64) (table : Std.ExtTreeMap κ α) : Nat := (table.toList.map fun entry => (weigh entry.2).toNat).sum

variable {weigh : α → UInt64} {table : Std.ExtTreeMap κ α}

/-- The load of a table is the sum of the weights of its values. -/
theorem load_eq (weigh : α → UInt64) (table : Std.ExtTreeMap κ α) :
    (load weigh table : Int) = Table.weigh table fun _ value => ((weigh value).toNat : Int) :=
  (Table.weigh_natCast table fun _ value => (weigh value).toNat).symm

@[simp] theorem load_empty (weigh : α → UInt64) : load weigh (∅ : Std.ExtTreeMap κ α) = 0 := by
  have h := load_eq weigh (∅ : Std.ExtTreeMap κ α)
  rw [Table.weigh_empty] at h
  omega

/-- The entries that are kept and those that are dropped weigh as much as all. -/
theorem load_filter_add_filter_not (weigh : α → UInt64) (table : Std.ExtTreeMap κ α) (keep : κ → α → Bool) :
    load weigh (table.filter keep) + load weigh (table.filter fun key value => !keep key value) = load weigh table := by
  have h := Table.weigh_filter_add_filter_not table keep fun _ value => ((weigh value).toNat : Int)
  rw [← load_eq, ← load_eq, ← load_eq] at h
  exact_mod_cast h

/-- What is kept of a table and what is dropped make up the table. -/
theorem size_filter_add_filter_not (table : Std.ExtTreeMap κ α) (keep : κ → α → Bool) :
    (table.filter keep).size + (table.filter fun key value => !keep key value).size = table.size := by
  have h := Table.weigh_filter_add_filter_not table keep fun _ _ => 1
  rw [Table.weigh_one, Table.weigh_one, Table.weigh_one] at h
  exact_mod_cast h

section

variable [Std.LawfulEqOrd κ] [DecidableEq κ] {key : κ} {old : α}

/-- A value under a new key adds its weight to the load. -/
theorem load_insert_of_none (weigh : α → UInt64) (h : table[key]? = none) (value : α) :
    load weigh (table.insert key value) = load weigh table + (weigh value).toNat := by
  have hload := Table.weigh_insert_of_none value (fun _ value => ((weigh value).toNat : Int)) h
  rw [← load_eq, ← load_eq] at hload
  omega

/-- A value that takes the place of another one adds its weight in exchange for that of the other. -/
theorem load_insert_of_some (weigh : α → UInt64) (h : table[key]? = some old) (value : α) :
    load weigh (table.insert key value) + (weigh old).toNat = load weigh table + (weigh value).toNat := by
  have hload := Table.weigh_insert_of_some value (fun _ value => ((weigh value).toNat : Int)) h
  rw [← load_eq, ← load_eq] at hload
  omega

/-- A value that is taken out takes its weight from the load. -/
theorem load_erase (weigh : α → UInt64) (h : table[key]? = some old) :
    load weigh (table.erase key) + (weigh old).toNat = load weigh table := by
  have hload := Table.weigh_erase (fun _ value => ((weigh value).toNat : Int)) h
  rw [← load_eq, ← load_eq] at hload
  omega

/-- No value of a table weighs more than all of them together. -/
theorem le_load (weigh : α → UInt64) (h : table[key]? = some old) : (weigh old).toNat ≤ load weigh table := by
  rw [← load_erase weigh h]
  exact Nat.le_add_left _ _

end

/-! ## One part -/

namespace MapPart

variable {part : MapPart κ α}

/-- A part whose count and weight are those of its entries, as far as words hold them. -/
structure Exact (weigh : α → UInt64) (part : MapPart κ α) : Prop where
  count : part.count.toNat = part.entries.size % 2 ^ 64
  weight : part.weight.toNat = load weigh part.entries % 2 ^ 64

/-- What a step takes from the count and from the weight of a part that it changes. -/
def taken (weigh : α → UInt64) (part : MapPart κ α) : MapStep κ α → Nat × Nat
  | .insert key _ | .update key _ => (0, part.entries[key]?.elim 0 fun old => (weigh old).toNat)
  | .remove key => (part.entries[key]?.elim 0 fun _ => 1, part.entries[key]?.elim 0 fun old => (weigh old).toNat)
  | .retain keep =>
    let dropped := part.entries.filter fun key value => !keep key value
    (dropped.size, load weigh dropped)
  | .get _ | .clear => (0, 0)

/-- What a step adds to the weight of a part before it takes from it: a value is changed where it stands. -/
def added (weigh : α → UInt64) (part : MapPart κ α) : MapStep κ α → UInt64
  | .update key change => part.entries[key]?.elim 0 fun old => weigh (change old)
  | .insert .. | .remove _ | .retain _ | .get _ | .clear => 0

/-- The entries of a part, and the value that a step adds before it takes from them, weigh no more than a word holds. -/
def Light (weigh : α → UInt64) (part : MapPart κ α) (step : MapStep κ α) : Prop :=
  part.entries.size < 2 ^ 64 ∧ load weigh part.entries + (part.added weigh step).toNat < 2 ^ 64

instance (part : MapPart κ α) (step : MapStep κ α) : Decidable (part.Light weigh step) := inferInstanceAs (Decidable (_ ∧ _))

/-- A step takes nothing from the counters of a part that is not in them then. -/
def Covers (weigh : α → UInt64) (part : MapPart κ α) (step : MapStep κ α) : Prop :=
  (part.taken weigh step).1 ≤ part.count.toNat ∧ (part.taken weigh step).2 ≤ (part.weight + part.added weigh step).toNat

instance (part : MapPart κ α) (step : MapStep κ α) : Decidable (part.Covers weigh step) := inferInstanceAs (Decidable (_ ∧ _))

/-- The totals of an empty part are exact. -/
theorem exact_empty : (empty : MapPart κ α).Exact weigh := by
  refine ⟨?_, ?_⟩
  · exact congrArg (· % 2 ^ 64) Std.ExtTreeMap.size_empty.symm
  · exact congrArg (· % 2 ^ 64) (load_empty weigh).symm

/-- A word subtracted from what it was part of leaves the rest. -/
theorem toNat_sub_of_add {total part rest : Nat} {word taken : UInt64} (hword : word.toNat = total % 2 ^ 64)
    (htaken : taken.toNat = part % 2 ^ 64) (hsum : rest + part = total) : (word - taken).toNat = rest % 2 ^ 64 := by
  rw [UInt64.toNat_sub, hword, htaken, ← hsum]
  omega

/-- A part that retains some entries takes what the others weigh from its weight, and their number from its count. -/
theorem retain_eq (part : MapPart κ α) (keep : κ → α → Bool) :
    part.retain weigh keep =
      (⟨part.entries.filter keep, part.count - UInt64.ofNat (part.taken weigh (.retain keep)).1,
        part.weight - addUp ((part.entries.filter fun key value => !keep key value).toList.map fun entry => weigh entry.2)⟩,
        (part.taken weigh (.retain keep)).1) := by
  have hdropped : (part.entries.toList.filter fun entry => !keep entry.1 entry.2) =
      (part.entries.filter fun key value => !keep key value).toList :=
    (Std.ExtTreeMap.toList_filter (f := fun key value => !keep key value)).symm
  change (MapPart.mk (part.entries.filter keep)
    (part.count - UInt64.ofNat (part.entries.toList.filter fun entry => !keep entry.1 entry.2).length)
    (part.weight - addUp ((part.entries.toList.filter fun entry => !keep entry.1 entry.2).map fun entry => weigh entry.2)),
    (part.entries.toList.filter fun entry => !keep entry.1 entry.2).length) = _
  rw [hdropped, Std.ExtTreeMap.length_toList]
  rfl

/-- Totals that are exact stay so when only some entries are retained. -/
theorem Exact.retain (h : part.Exact weigh) (keep : κ → α → Bool) : (part.retain weigh keep).1.Exact weigh := by
  have hsize := size_filter_add_filter_not part.entries keep
  have hload := load_filter_add_filter_not weigh part.entries keep
  rw [retain_eq]
  refine ⟨toNat_sub_of_add h.count UInt64.toNat_ofNat' hsize, toNat_sub_of_add h.weight ?_ hload⟩
  rw [toNat_addUp, List.map_map]
  rfl

variable [Std.LawfulEqOrd κ] [DecidableEq κ]

/-! Each step on a part is known by the value it leaves under its key, and by its answer. -/

/-- What is found in a part after an insertion. -/
theorem getElem?_insert (part : MapPart κ α) (key other : κ) (value : α) :
    (part.insert weigh key value).1.entries[other]? = if key = other then some value else part.entries[other]? := by
  unfold MapPart.insert
  cases part.entries[key]? <;> exact Table.getElem?_insert part.entries key other value

/-- What is found in a part after a removal. -/
theorem getElem?_remove (part : MapPart κ α) (key other : κ) :
    (part.remove weigh key).1.entries[other]? = if key = other then none else part.entries[other]? := by
  unfold MapPart.remove
  cases hkey : part.entries[key]? with
  | none =>
    by_cases hother : key = other
    · rw [if_pos hother, ← hother]
      exact hkey
    · rw [if_neg hother]
  | some old => exact Table.getElem?_erase part.entries key other

/-- What is found in a part after an update. -/
theorem getElem?_update (part : MapPart κ α) (key other : κ) (change : α → α) :
    (part.update weigh key change).1.entries[other]? =
      if key = other then part.entries[key]?.map change else part.entries[other]? := by
  unfold MapPart.update
  cases hkey : part.entries[key]? with
  | none =>
    by_cases hother : key = other
    · rw [if_pos hother, ← hother]
      exact hkey
    · rw [if_neg hother]
  | some old => exact Table.getElem?_insert part.entries key other (change old)

omit [Std.LawfulEqOrd κ] [DecidableEq κ] in
/-- An insertion gives the value that was there before. -/
theorem insert_snd (part : MapPart κ α) (key : κ) (value : α) : (part.insert weigh key value).2 = part.entries[key]? := by
  unfold MapPart.insert
  cases part.entries[key]? <;> rfl

omit [Std.LawfulEqOrd κ] [DecidableEq κ] in
/-- A removal gives the value that was there before. -/
theorem remove_snd (part : MapPart κ α) (key : κ) : (part.remove weigh key).2 = part.entries[key]? := by
  unfold MapPart.remove
  cases part.entries[key]? <;> rfl

omit [Std.LawfulEqOrd κ] [DecidableEq κ] in
/-- An update tells whether there was a value to change. -/
theorem update_snd (part : MapPart κ α) (key : κ) (change : α → α) :
    (part.update weigh key change).2 = part.entries[key]?.isSome := by
  unfold MapPart.update
  cases part.entries[key]? <;> rfl

/-- Totals that are exact stay so with an insertion. -/
theorem Exact.insert (h : part.Exact weigh) (key : κ) (value : α) : (part.insert weigh key value).1.Exact weigh := by
  have hsize := Std.ExtTreeMap.size_insert (t := part.entries) (k := key) (v := value)
  rw [Std.ExtTreeMap.contains_eq_isSome_getElem?] at hsize
  unfold MapPart.insert
  cases hkey : part.entries[key]? with
  | none =>
    rw [hkey] at hsize
    refine ⟨?_, ?_⟩
    · dsimp only
      rw [UInt64.toNat_add, h.count, hsize]
      simp
    · dsimp only
      rw [UInt64.toNat_add, h.weight, load_insert_of_none weigh hkey value, Nat.mod_add_mod]
  | some old =>
    rw [hkey] at hsize
    have hload := load_insert_of_some weigh hkey value
    refine ⟨h.count.trans (congrArg (· % 2 ^ 64) hsize.symm), ?_⟩
    have hrest := load_erase weigh hkey
    have hsub := toNat_sub_of_add h.weight (Nat.mod_eq_of_lt (weigh old).toNat_lt).symm hrest
    dsimp only
    rw [UInt64.toNat_add, hsub]
    omega

/-- Totals that are exact stay so with a removal. -/
theorem Exact.remove (h : part.Exact weigh) (key : κ) : (part.remove weigh key).1.Exact weigh := by
  unfold MapPart.remove
  cases hkey : part.entries[key]? with
  | none => exact h
  | some old =>
    have hsize : (part.entries.erase key).size + 1 = part.entries.size := by
      have hpos : part.entries.size ≠ 0 := by
        rw [Ne, ← Std.ExtTreeMap.eq_empty_iff_size_eq_zero]
        rintro hempty
        rw [hempty] at hkey
        simp at hkey
      rw [Std.ExtTreeMap.size_erase, Std.ExtTreeMap.contains_eq_isSome_getElem?, hkey]
      exact Nat.sub_add_cancel (Nat.pos_of_ne_zero hpos)
    exact ⟨toNat_sub_of_add h.count rfl hsize,
      toNat_sub_of_add h.weight (Nat.mod_eq_of_lt (weigh old).toNat_lt).symm (load_erase weigh hkey)⟩

/-- Totals that are exact stay so with an update. -/
theorem Exact.update (h : part.Exact weigh) (key : κ) (change : α → α) : (part.update weigh key change).1.Exact weigh := by
  unfold MapPart.update
  cases hkey : part.entries[key]? with
  | none => exact h
  | some old =>
    have hload := load_insert_of_some weigh hkey (change old)
    refine ⟨?_, ?_⟩
    · dsimp only
      rw [Std.ExtTreeMap.size_insert, Std.ExtTreeMap.contains_eq_isSome_getElem?, hkey, h.count]
      rfl
    · refine toNat_sub_of_add ?_ (Nat.mod_eq_of_lt (weigh old).toNat_lt).symm hload
      rw [UInt64.toNat_add, h.weight, Nat.mod_add_mod]

/-- Nothing is taken that is not there, while the entries are light enough for a word. -/
theorem Exact.covers (h : part.Exact weigh) {step : MapStep κ α} (hlight : part.Light weigh step) : part.Covers weigh step := by
  obtain ⟨hfew, hload⟩ := hlight
  have hcount : part.count.toNat = part.entries.size := h.count.trans (Nat.mod_eq_of_lt hfew)
  have hweight : (part.weight + part.added weigh step).toNat = load weigh part.entries + (part.added weigh step).toNat := by
    rw [UInt64.toNat_add, h.weight, Nat.mod_add_mod, Nat.mod_eq_of_lt hload]
  unfold Covers
  rw [hcount, hweight]
  have hone : ∀ key : κ, (part.entries[key]?.elim 0 fun _ => 1) ≤ part.entries.size ∧
      (part.entries[key]?.elim 0 fun old => (weigh old).toNat) ≤ load weigh part.entries := by
    intro key
    cases hkey : part.entries[key]? with
    | none => exact ⟨Nat.zero_le _, Nat.zero_le _⟩
    | some old =>
      refine ⟨Nat.one_le_iff_ne_zero.mpr fun hzero => ?_, le_load weigh hkey⟩
      rw [← Std.ExtTreeMap.eq_empty_iff_size_eq_zero] at hzero
      rw [hzero] at hkey
      simp at hkey
  cases step with
  | insert key | update key => exact ⟨Nat.zero_le _, (hone key).2.trans (Nat.le_add_right _ _)⟩
  | remove key => exact ⟨(hone key).1, (hone key).2.trans (Nat.le_add_right _ _)⟩
  | retain keep =>
    have hsize := size_filter_add_filter_not part.entries keep
    have hload := load_filter_add_filter_not weigh part.entries keep
    rw [← hsize, ← hload]
    exact ⟨Nat.le_add_left _ _, (Nat.le_add_left _ _).trans (Nat.le_add_right _ _)⟩
  | get | clear => exact ⟨Nat.zero_le _, Nat.zero_le _⟩

end MapPart

/-! ## All parts -/

namespace PartitionedMap

variable {hash : κ → Nat} {map : PartitionedMap κ α} {count : Nat}

/-- A map whose parts share the entries of a table by the hash of their keys, each with the count and the weight of its own. -/
structure Shares (hash : κ → Nat) (weigh : α → UInt64) (count : Nat) (map : PartitionedMap κ α) (table : Std.ExtTreeMap κ α) :
    Prop where
  size : map.parts.size = count
  found : ∀ {i : Nat} {part : MapPart κ α}, map.parts[i]? = some part → ∀ key : κ,
    part.entries[key]? = if hash key % count = i then table[key]? else none
  exact : ∀ {i : Nat} {part : MapPart κ α}, map.parts[i]? = some part → part.Exact weigh

/-- The part of a key is the one that its hash points to. -/
theorem Shares.getElem?_parts (h : map.Shares hash weigh count table) (key : κ) :
    map.parts[hash key % count]? = some (map.part hash key) := by
  rw [← h.size]
  exact Array.getElem?_eq_getElem _

/-- The totals of the part of a key are exact. -/
theorem Shares.exact_part (h : map.Shares hash weigh count table) (key : κ) : (map.part hash key).Exact weigh :=
  h.exact (h.getElem?_parts key)

/-- Every key is looked up in the part it belongs to. -/
theorem Shares.getElem?_part (h : map.Shares hash weigh count table) (key : κ) :
    (map.part hash key).entries[key]? = table[key]? := by
  rw [h.found (h.getElem?_parts key), if_pos rfl]

/-- Empty parts share an empty table among them. -/
theorem shares_replicate (hash : κ → Nat) (weigh : α → UInt64) (count : Nat) (hcount : 0 < count) :
    Shares hash weigh count ⟨Array.replicate count .empty, by rwa [Array.size_replicate]⟩ (∅ : Std.ExtTreeMap κ α) where
  size := Array.size_replicate
  found {i part} hpart key := by
    obtain rfl := Array.eq_of_mem_replicate (Array.mem_of_getElem? hpart)
    simp [MapPart.empty]
  exact {i part} hpart := by
    obtain rfl := Array.eq_of_mem_replicate (Array.mem_of_getElem? hpart)
    exact MapPart.exact_empty

/-- A map of any power of two of parts can be had, and is empty. -/
theorem exists_ofCount (hash : κ → Nat) (weigh : α → UInt64) (exponent : Nat) :
    ∃ start : PartitionedMap κ α, ofCount (2 ^ exponent) = .ok start ∧
      start.Shares hash weigh (2 ^ exponent) (∅ : Std.ExtTreeMap κ α) := by
  refine ⟨_, ?_, shares_replicate hash weigh (2 ^ exponent) (Nat.two_pow_pos exponent)⟩
  unfold ofCount
  exact dif_pos (congrArg (2 ^ ·) Nat.log2_two_pow)

/-- A value changed in the part of its key is changed in the table. -/
theorem Shares.setPart [DecidableEq κ] (h : map.Shares hash weigh count table) (key : κ) (change : Option α → Option α)
    {part : MapPart κ α} {table' : Std.ExtTreeMap κ α} (hexact : part.Exact weigh)
    (hpart : ∀ other, part.entries[other]? =
      if key = other then change (map.part hash key).entries[key]? else (map.part hash key).entries[other]?)
    (htable : ∀ other, table'[other]? = if key = other then change table[key]? else table[other]?) :
    (map.setPart hash key part).Shares hash weigh count table' := by
  have hset : ∀ i : Nat, (map.setPart hash key part).parts[i]? = if hash key % count = i then some part else map.parts[i]? := by
    intro i
    rw [← h.size]
    exact Array.getElem?_set (map.position hash key).isLt
  have hsize : (map.setPart hash key part).parts.size = map.parts.size := Array.size_set (map.position hash key).isLt
  refine ⟨hsize.trans h.size, fun {i found} hfound other => ?_, fun {i found} hfound => ?_⟩
  · rw [hset] at hfound
    rw [htable]
    by_cases hi : hash key % count = i
    · rw [if_pos hi] at hfound
      obtain rfl := Option.some.inj hfound
      rw [hpart, h.getElem?_part, h.found (h.getElem?_parts key), hi]
      by_cases hother : key = other
      · rw [if_pos hother, if_pos hother, ← hother, if_pos hi]
      · rw [if_neg hother, if_neg hother]
    · rw [if_neg hi] at hfound
      rw [h.found hfound]
      by_cases hother : key = other
      · rw [← hother, if_neg hi, if_neg hi]
      · rw [if_neg hother]
  · rw [hset] at hfound
    by_cases hi : hash key % count = i
    · rw [if_pos hi] at hfound
      obtain rfl := Option.some.inj hfound
      exact hexact
    · rw [if_neg hi] at hfound
      exact h.exact hfound

/-! ## Totals -/

variable [Std.LawfulEqOrd κ]

/-- An entry of a map is an entry of one of its parts. -/
theorem mem_toList {entry : κ × α} : entry ∈ map.toList ↔
    ∃ (i : Nat) (part : MapPart κ α), map.parts[i]? = some part ∧ part.entries[entry.1]? = some entry.2 := by
  unfold toList
  rw [List.mem_flatMap]
  constructor
  · rintro ⟨part, hpart, hentry⟩
    obtain ⟨i, hi⟩ := List.mem_iff_getElem?.mp hpart
    exact ⟨i, part, Array.getElem?_toList.symm.trans hi, Table.mem_toList.mp hentry⟩
  · rintro ⟨i, part, hpart, hentry⟩
    exact ⟨part, Array.mem_toList_iff.mpr (Array.mem_of_getElem? hpart), Table.mem_toList.mpr hentry⟩

/-- No entry of a map is listed twice. -/
theorem Shares.nodup_toList (h : map.Shares hash weigh count table) : map.toList.Nodup := by
  unfold toList
  rw [List.nodup_flatMap]
  refine ⟨fun part _ => Table.nodup_toList part.entries, List.pairwise_iff_getElem.mpr fun i j hi hj hlt => ?_⟩
  intro entry hentry hentry'
  have hplace : ∀ (i : Nat) (hi : i < map.parts.toList.length), entry ∈ map.parts.toList[i].entries.toList →
      hash entry.1 % count = i := by
    intro i hi hentry
    have hpart : map.parts[i]? = some map.parts.toList[i] := Array.getElem?_toList.symm.trans (List.getElem?_eq_getElem hi)
    have hvalue := Table.mem_toList.mp hentry
    rw [h.found hpart] at hvalue
    split at hvalue
    · assumption
    · cases hvalue
  exact hlt.ne ((hplace i hi hentry).symm.trans (hplace j hj hentry'))

/-- The entries of all parts are the entries of the table. -/
theorem Shares.toList_perm (h : map.Shares hash weigh count table) : map.toList.Perm table.toList := by
  rw [List.perm_ext_iff_of_nodup h.nodup_toList (Table.nodup_toList table)]
  intro entry
  rw [mem_toList, Table.mem_toList]
  constructor
  · rintro ⟨i, part, hpart, hentry⟩
    rw [h.found hpart] at hentry
    split at hentry
    · exact hentry
    · cases hentry
  · intro hentry
    exact ⟨_, _, h.getElem?_parts entry.1, (h.getElem?_part entry.1).trans hentry⟩

omit [Std.LawfulEqOrd κ] in
/-- Totals of the parts, each exact as far as a word holds it, add up to the whole as far as a word holds it. -/
theorem Shares.addUp_eq (h : map.Shares hash weigh count table) {total : MapPart κ α → UInt64} {exact : MapPart κ α → Nat}
    (htotal : ∀ part : MapPart κ α, part.Exact weigh → (total part).toNat = exact part % 2 ^ 64) :
    (addUp (map.parts.toList.map total)).toNat = (map.parts.toList.map exact).sum % 2 ^ 64 := by
  rw [toNat_addUp, List.map_map, List.sum_nat_mod (map.parts.toList.map exact), List.map_map]
  refine congrArg (List.sum · % 2 ^ 64) (List.map_congr_left fun part hpart => ?_)
  obtain ⟨i, hi⟩ := List.mem_iff_getElem?.mp hpart
  exact htotal part (h.exact (Array.getElem?_toList.symm.trans hi))

/-- The entries of the parts are as many as those of the table. -/
theorem Shares.sum_size (h : map.Shares hash weigh count table) :
    (map.parts.toList.map fun part => part.entries.size).sum = table.size := by
  have hlength : map.toList.length = (map.parts.toList.map fun part => part.entries.toList.length).sum :=
    List.length_flatMap
  rw [← Std.ExtTreeMap.length_toList, ← h.toList_perm.length_eq, hlength]
  exact congrArg List.sum (List.map_congr_left fun part _ => Std.ExtTreeMap.length_toList.symm)

/-- The counts of the parts add up to the size of the table. -/
theorem Shares.size_eq (h : map.Shares hash weigh count table) : map.size.toNat = table.size % 2 ^ 64 := by
  rw [PartitionedMap.size, h.addUp_eq fun part hexact => hexact.count, h.sum_size]

/-- The weights of the parts add up to what the entries of the table weigh. -/
theorem Shares.weight_eq (h : map.Shares hash weigh count table) : map.weight.toNat = load weigh table % 2 ^ 64 := by
  have hload : (map.toList.map fun entry => (weigh entry.2).toNat).sum =
      (map.parts.toList.map fun part => load weigh part.entries).sum := by
    rw [toList, List.map_flatMap, List.flatMap_def, List.sum_flatten, List.map_map]
    rfl
  rw [load, ← (h.toList_perm.map _).sum_eq, hload, PartitionedMap.weight, h.addUp_eq fun part hexact => hexact.weight]

/-! ## Steps -/

omit [Std.LawfulEqOrd κ] in
/-- Once a map is cleared, its parts share an empty table. -/
theorem Shares.clear (h : map.Shares hash weigh count table) : map.clear.Shares hash weigh count (∅ : Std.ExtTreeMap κ α) := by
  have hempty : ∀ {i : Nat} {part : MapPart κ α}, map.clear.parts[i]? = some part → part = .empty := by
    intro i part hpart
    rw [PartitionedMap.clear, Array.getElem?_map, Option.map_eq_some_iff] at hpart
    obtain ⟨-, -, rfl⟩ := hpart
    rfl
  refine ⟨Array.size_map.trans h.size, fun hpart key => ?_, fun hpart => ?_⟩
  · rw [hempty hpart]
    simp [MapPart.empty]
  · rw [hempty hpart]
    exact MapPart.exact_empty

/-- Where the parts share a table, they share what is retained of it. -/
theorem Shares.retain (h : map.Shares hash weigh count table) (keep : κ → α → Bool) :
    (map.retain weigh keep).1.Shares hash weigh count (table.filter keep) := by
  have hkept : ∀ {i : Nat} {part : MapPart κ α}, (map.retain weigh keep).1.parts[i]? = some part →
      ∃ old, map.parts[i]? = some old ∧ (old.retain weigh keep).1 = part := by
    intro i part hpart
    rwa [PartitionedMap.retain, Array.getElem?_map, Option.map_eq_some_iff] at hpart
  refine ⟨Array.size_map.trans h.size, fun hpart key => ?_, fun hpart => ?_⟩
  · obtain ⟨old, hold, rfl⟩ := hkept hpart
    rw [MapPart.retain_eq, Std.ExtTreeMap.getElem?_filter', Std.ExtTreeMap.getElem?_filter', h.found hold]
    split <;> rfl
  · obtain ⟨old, hold, rfl⟩ := hkept hpart
    exact (h.exact hold).retain keep

/-- The entries that are dropped are those that were there before and are not there after. -/
theorem Shares.retain_snd [DecidableEq κ] (h : map.Shares hash weigh count table) (keep : κ → α → Bool) :
    (map.retain weigh keep).2 = table.size - (table.filter keep).size := by
  have hdropped : ∀ part : MapPart κ α, (part.retain weigh keep).1.entries.size + (part.retain weigh keep).2 = part.entries.size := by
    intro part
    rw [MapPart.retain_eq]
    exact size_filter_add_filter_not part.entries keep
  have hsum : ((map.retain weigh keep).1.parts.toList.map fun part => part.entries.size).sum + (map.retain weigh keep).2 =
      (map.parts.toList.map fun part => part.entries.size).sum := by
    have hfold : (map.retain weigh keep).2 = (map.parts.toList.map fun part => (part.retain weigh keep).2).sum := by
      rw [List.sum_eq_foldl, List.foldl_map]
      rfl
    rw [hfold, PartitionedMap.retain, Array.toList_map, List.map_map, ← List.sum_map_add]
    exact congrArg List.sum (List.map_congr_left fun part _ => hdropped part)
  rw [(h.retain keep).sum_size, h.sum_size] at hsum
  omega

/-- A step on a map is the step on the table. -/
theorem Shares.perform [DecidableEq κ] (h : map.Shares hash weigh count table) (step : MapStep κ α) :
    (map.perform hash weigh step).1 = (step.onTable table).1 ∧
      (map.perform hash weigh step).2.Shares hash weigh count (step.onTable table).2 := by
  have hexact := h.exact_part
  cases step with
  | insert key value =>
    refine ⟨(MapPart.insert_snd _ key value).trans (h.getElem?_part key), ?_⟩
    exact h.setPart key (fun _ => some value) ((hexact key).insert key value)
      (fun other => MapPart.getElem?_insert _ key other value) fun other => Table.getElem?_insert table key other value
  | get key => exact ⟨h.getElem?_part key, h⟩
  | remove key =>
    refine ⟨(MapPart.remove_snd _ key).trans (h.getElem?_part key), ?_⟩
    exact h.setPart key (fun _ => none) ((hexact key).remove key)
      (fun other => MapPart.getElem?_remove _ key other) fun other => Table.getElem?_erase table key other
  | update key change =>
    have hmodify : ∀ other, (table.modify key change)[other]? = if key = other then table[key]?.map change else table[other]? := by
      intro other
      rw [Std.ExtTreeMap.getElem?_modify]
      simp only [Std.LawfulEqCmp.compare_eq_iff_eq]
    refine ⟨?_, h.setPart key (Option.map change) ((hexact key).update key change)
      (fun other => MapPart.getElem?_update _ key other change) hmodify⟩
    exact (MapPart.update_snd _ key change).trans
      ((congrArg Option.isSome (h.getElem?_part key)).trans Std.ExtTreeMap.contains_eq_isSome_getElem?.symm)
  | retain keep => exact ⟨h.retain_snd keep, h.retain keep⟩
  | clear => exact ⟨rfl, h.clear⟩

/-- Whatever steps are served, the parts share the table that the same steps leave. -/
theorem Shares.serve [DecidableEq κ] (h : map.Shares hash weigh count table) (steps : List (MapStep κ α)) :
    (map.serve hash weigh steps).Shares hash weigh count (steps.foldl (fun table step => (step.onTable table).2) table) := by
  induction steps generalizing map table with
  | nil => exact h
  | cons step steps ih => exact ih (h.perform step).2

end PartitionedMap

end TileDepot
