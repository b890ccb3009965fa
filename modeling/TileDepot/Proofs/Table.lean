import Mathlib.Algebra.BigOperators.Group.List.Basic
import Mathlib.Algebra.GroupWithZero.Nat
import Mathlib.Algebra.Order.BigOperators.Group.List
import Mathlib.Algebra.Ring.Int.Defs
import Mathlib.Data.List.Induction
import Mathlib.Data.List.Nodup
import Std.Data.ExtTreeMap

/-!
# Sums over tables

The books of a depot are tables, and what is said of them is said of sums over their entries: `weigh` adds up a measure of
the entries, and every change of a table (an entry put in, an entry gone, the entries of a kind gone, entries moved to other
keys) has a law that says what becomes of the sum. The loops that move entries from key to key are known by their look-ups.
-/

namespace TileDepot.Table

variable {κ β : Type} [Ord κ] [Std.TransOrd κ]

/-- The sum of a measure over the entries of a table. -/
def weigh (table : Std.ExtTreeMap κ β) (measure : κ → β → Int) : Int :=
  (table.toList.map fun entry => measure entry.1 entry.2).sum

/-! ## Lists of entries -/

/-- The values of a table are those of its entries, in the order of the keys. -/
theorem values_eq (table : Std.ExtTreeMap κ β) : table.values = table.toList.map Prod.snd := by
  rcases table with ⟨table⟩
  rcases table with ⟨quotient⟩
  induction quotient using Quotient.inductionOn with
  | _ tree =>
    change tree.foldr (fun _ value values => value :: values) [] = (Std.DTreeMap.Const.toList tree).map Prod.snd
    rw [Std.DTreeMap.Const.foldr_eq_foldr_toList]
    induction Std.DTreeMap.Const.toList tree with
    | nil => rfl
    | cons entry entries ih => simp [ih]

theorem values_map {γ : Type} (table : Std.ExtTreeMap κ β) (change : β → γ) :
    (table.map fun _ value => change value).values = table.values.map change := by
  rw [values_eq, values_eq, Std.ExtTreeMap.toList_map, List.map_map, List.map_map]
  rfl

/-- No key is listed twice. -/
theorem nodup_toList_keys (table : Std.ExtTreeMap κ β) : (table.toList.map Prod.fst).Nodup := by
  rw [Std.ExtTreeMap.map_fst_toList_eq_keys]
  exact Std.ExtTreeMap.nodup_keys

theorem nodup_toList (table : Std.ExtTreeMap κ β) : table.toList.Nodup := List.Nodup.of_map _ (nodup_toList_keys table)

/-- A key that is listed is one that has a value. -/
theorem mem_iff_exists {table : Std.ExtTreeMap κ β} {key : κ} : key ∈ table ↔ ∃ value, table[key]? = some value := by
  rw [Std.ExtTreeMap.mem_iff_isSome_getElem?, Option.isSome_iff_exists]

/-! ## Sums -/

@[simp] theorem weigh_empty (measure : κ → β → Int) : weigh (∅ : Std.ExtTreeMap κ β) measure = 0 := by
  have h : (∅ : Std.ExtTreeMap κ β).toList = [] := Std.ExtTreeMap.toList_eq_nil_iff.mpr rfl
  rw [weigh, h]
  rfl

/-- A sum over the entries of a kind is a sum over all entries in which the others count nothing. -/
theorem weigh_filter (table : Std.ExtTreeMap κ β) (keep : κ → β → Bool) (measure : κ → β → Int) :
    weigh (table.filter keep) measure = weigh table fun key value => if keep key value then measure key value else 0 := by
  unfold weigh
  rw [Std.ExtTreeMap.toList_filter]
  induction table.toList with
  | nil => rfl
  | cons entry entries ih =>
    by_cases h : keep entry.1 entry.2 = true
    · simp [h, ih]
    · simp [h, ih]

/-- To count every entry of a kind once is to count these entries. -/
theorem weigh_indicator (table : Std.ExtTreeMap κ β) (kind : κ → β → Bool) :
    weigh table (fun key value => if kind key value then 1 else 0) =
      (table.toList.filter fun entry => kind entry.1 entry.2).length := by
  unfold weigh
  induction table.toList with
  | nil => rfl
  | cons entry entries ih =>
    by_cases h : kind entry.1 entry.2 = true
    · simp [h, ih, add_comm]
    · simp [h, ih]

/-- The entries that are not of a kind taken from all entries leave those that are. -/
theorem size_sub_size_filter_not (table : Std.ExtTreeMap κ β) (kind : κ → β → Bool) :
    table.size - (table.filter fun key value => !kind key value).size = (table.filter kind).size := by
  rw [← Std.ExtTreeMap.length_toList, ← Std.ExtTreeMap.length_toList, ← Std.ExtTreeMap.length_toList,
    Std.ExtTreeMap.toList_filter, Std.ExtTreeMap.toList_filter,
    List.length_eq_length_filter_add fun entry : κ × β => kind entry.1 entry.2]
  exact Nat.add_sub_cancel _ _

/-- The sum over the values made from those of another table. -/
theorem weigh_map {γ : Type} (table : Std.ExtTreeMap κ β) (change : κ → β → γ) (measure : κ → γ → Int) :
    weigh (table.map change) measure = weigh table fun key value => measure key (change key value) := by
  unfold weigh
  rw [Std.ExtTreeMap.toList_map, List.map_map]
  rfl

/-- Sums of two measures. -/
theorem weigh_add (table : Std.ExtTreeMap κ β) (measure measure' : κ → β → Int) :
    weigh table (fun key value => measure key value + measure' key value) = weigh table measure + weigh table measure' := by
  unfold weigh
  induction table.toList with
  | nil => rfl
  | cons entry entries ih =>
    simp only [List.map_cons, List.sum_cons, ih]
    omega

/-- The entries of a kind and those that are not of it are all entries. -/
theorem weigh_filter_add_filter_not (table : Std.ExtTreeMap κ β) (kind : κ → β → Bool) (measure : κ → β → Int) :
    weigh (table.filter kind) measure + weigh (table.filter fun key value => !kind key value) measure = weigh table measure := by
  rw [weigh_filter, weigh_filter, ← weigh_add]
  unfold weigh
  refine congrArg List.sum (List.map_congr_left fun entry _ => ?_)
  cases hkind : kind entry.1 entry.2 <;> simp [hkind]

/-- Entries that all count one are counted. -/
theorem weigh_one (table : Std.ExtTreeMap κ β) : weigh table (fun _ _ => 1) = table.size := by
  rw [weigh, List.map_const', List.sum_replicate, Std.ExtTreeMap.length_toList, nsmul_one]

/-- A sum of natural numbers is one. -/
theorem weigh_natCast (table : Std.ExtTreeMap κ β) (measure : κ → β → Nat) :
    weigh table (fun key value => (measure key value : Int)) =
      ((table.toList.map fun entry => measure entry.1 entry.2).sum : Nat) := by
  unfold weigh
  induction table.toList with
  | nil => rfl
  | cons entry entries ih => rw [List.map_cons, List.map_cons, List.sum_cons, List.sum_cons, ih, Nat.cast_add]

variable [Std.LawfulEqOrd κ]

theorem mem_toList {table : Std.ExtTreeMap κ β} {entry : κ × β} : entry ∈ table.toList ↔ table[entry.1]? = some entry.2 :=
  Std.ExtTreeMap.mem_toList_iff_getElem?_eq_some

theorem mem_values {table : Std.ExtTreeMap κ β} {value : β} : value ∈ table.values ↔ ∃ key : κ, table[key]? = some value := by
  rw [values_eq, List.mem_map]
  constructor
  · rintro ⟨entry, h, rfl⟩
    exact ⟨entry.1, mem_toList.mp h⟩
  · rintro ⟨key, h⟩
    exact ⟨(key, value), mem_toList.mpr h, rfl⟩

theorem weigh_congr {table : Std.ExtTreeMap κ β} {measure measure' : κ → β → Int}
    (h : ∀ key value, table[key]? = some value → measure key value = measure' key value) :
    weigh table measure = weigh table measure' := by
  unfold weigh
  refine congrArg List.sum (List.map_congr_left fun entry hentry => ?_)
  exact h entry.1 entry.2 (mem_toList.mp hentry)

theorem weigh_nonneg {table : Std.ExtTreeMap κ β} {measure : κ → β → Int}
    (h : ∀ key value, table[key]? = some value → 0 ≤ measure key value) : 0 ≤ weigh table measure := by
  refine List.sum_nonneg fun amount hamount => ?_
  obtain ⟨entry, hentry, rfl⟩ := List.mem_map.mp hamount
  exact h entry.1 entry.2 (mem_toList.mp hentry)

theorem weigh_le {table : Std.ExtTreeMap κ β} {measure measure' : κ → β → Int}
    (h : ∀ key value, table[key]? = some value → measure key value ≤ measure' key value) :
    weigh table measure ≤ weigh table measure' :=
  List.sum_le_sum fun entry hentry => h entry.1 entry.2 (mem_toList.mp hentry)

theorem weigh_eq_zero {table : Std.ExtTreeMap κ β} {measure : κ → β → Int}
    (h : ∀ key value, table[key]? = some value → measure key value = 0) : weigh table measure = 0 := by
  refine List.sum_eq_zero fun amount hamount => ?_
  obtain ⟨entry, hentry, rfl⟩ := List.mem_map.mp hamount
  exact h entry.1 entry.2 (mem_toList.mp hentry)

/-- The sums over the entries of each of several kinds are together the sum over the entries of all these kinds. -/
theorem sum_weigh_of_kind {γ : Type} [DecidableEq γ] (table : Std.ExtTreeMap κ β) (kind : κ → β → γ) (measure : κ → β → Int) :
    ∀ kinds : List γ, kinds.Nodup →
      (kinds.map fun k => weigh table fun key value => if kind key value = k then measure key value else 0).sum =
        weigh table fun key value => if kind key value ∈ kinds then measure key value else 0 := by
  intro kinds
  induction kinds with
  | nil =>
    intro _
    exact (weigh_eq_zero fun key value _ => if_neg List.not_mem_nil).symm
  | cons k kinds ih =>
    intro hnodup
    obtain ⟨hfresh, hnodup⟩ := List.nodup_cons.mp hnodup
    rw [List.map_cons, List.sum_cons, ih hnodup, ← weigh_add]
    refine weigh_congr fun key value _ => ?_
    by_cases hkind : kind key value = k
    · subst hkind
      simp [hfresh]
    · simp [hkind]

/-- A sum above zero has an entry that counts. -/
theorem exists_of_weigh_pos {table : Std.ExtTreeMap κ β} {measure : κ → β → Int} (h : 0 < weigh table measure) :
    ∃ key value, table[key]? = some value ∧ 0 < measure key value := by
  by_contra hnone
  push Not at hnone
  have hneg : 0 ≤ weigh table fun key value => -measure key value :=
    weigh_nonneg fun key value hkey => Int.neg_nonneg_of_nonpos (hnone key value hkey)
  have hsum := weigh_add table measure fun key value => -measure key value
  rw [weigh_eq_zero fun key value _ => Int.add_right_neg _] at hsum
  omega

/-! ## Entries put in and taken out -/

variable [DecidableEq κ]

theorem getElem?_insert (table : Std.ExtTreeMap κ β) (key key' : κ) (value : β) :
    (table.insert key value)[key']? = if key = key' then some value else table[key']? := by
  rw [Std.ExtTreeMap.getElem?_insert]
  simp only [Std.LawfulEqCmp.compare_eq_iff_eq]

theorem getElem?_erase (table : Std.ExtTreeMap κ β) (key key' : κ) :
    (table.erase key)[key']? = if key = key' then none else table[key']? := by
  rw [Std.ExtTreeMap.getElem?_erase]
  simp only [Std.LawfulEqCmp.compare_eq_iff_eq]

/-- An entry taken out and put in again. -/
theorem insert_erase_self {table : Std.ExtTreeMap κ β} {key : κ} {value : β} (h : table[key]? = some value) :
    (table.erase key).insert key value = table := by
  refine Std.ExtTreeMap.ext_getElem? fun key' => ?_
  rw [getElem?_insert, getElem?_erase]
  by_cases hkey : key = key'
  · subst hkey
    rw [if_pos rfl, h]
  · rw [if_neg hkey, if_neg hkey]

/-- Of the entries of a table with a new one, the new one and the old ones are all. -/
theorem toList_insert_perm {table : Std.ExtTreeMap κ β} {key : κ} (value : β) (h : table[key]? = none) :
    (table.insert key value).toList.Perm ((key, value) :: table.toList) := by
  have hnew : (key, value) ∉ table.toList := by
    rw [mem_toList, h]
    simp
  rw [List.perm_ext_iff_of_nodup (nodup_toList _) (List.nodup_cons.mpr ⟨hnew, nodup_toList _⟩)]
  rintro ⟨key', value'⟩
  rw [mem_toList, List.mem_cons, mem_toList, getElem?_insert]
  by_cases hkey : key = key'
  · subst hkey
    simp [h, eq_comm]
  · simp [hkey, Ne.symm hkey]

/-- An entry and the entries without it are all the entries. -/
theorem toList_perm_erase {table : Std.ExtTreeMap κ β} {key : κ} {value : β} (h : table[key]? = some value) :
    table.toList.Perm ((key, value) :: (table.erase key).toList) := by
  have hgone : (table.erase key)[key]? = none := by simp
  have hperm := toList_insert_perm value hgone
  rwa [insert_erase_self h] at hperm

theorem weigh_insert_of_none {table : Std.ExtTreeMap κ β} {key : κ} (value : β) (measure : κ → β → Int)
    (h : table[key]? = none) : weigh (table.insert key value) measure = measure key value + weigh table measure := by
  unfold weigh
  rw [((toList_insert_perm value h).map _).sum_eq]
  rfl

theorem weigh_erase {table : Std.ExtTreeMap κ β} {key : κ} {value : β} (measure : κ → β → Int)
    (h : table[key]? = some value) : weigh (table.erase key) measure = weigh table measure - measure key value := by
  unfold weigh
  rw [((toList_perm_erase h).map _).sum_eq, List.map_cons, List.sum_cons, add_sub_cancel_left]

/-- An entry replaced: what the old one counted goes, what the new one counts comes. -/
theorem weigh_insert_of_some {table : Std.ExtTreeMap κ β} {key : κ} {old : β} (value : β) (measure : κ → β → Int)
    (h : table[key]? = some old) :
    weigh (table.insert key value) measure = weigh table measure + (measure key value - measure key old) := by
  have hsame : table.insert key value = (table.erase key).insert key value := by
    refine Std.ExtTreeMap.ext_getElem? fun key' => ?_
    rw [getElem?_insert, getElem?_insert, getElem?_erase]
    split <;> rfl
  rw [hsame, weigh_insert_of_none value measure (by simp), weigh_erase measure h]
  omega

/-- One entry counts no more than all, where none counts less than nothing. -/
theorem le_weigh (measure : κ → β → Int) {table : Std.ExtTreeMap κ β} {key : κ} {value : β} (hkey : table[key]? = some value)
    (h : ∀ key value, table[key]? = some value → 0 ≤ measure key value) : measure key value ≤ weigh table measure := by
  have hrest : 0 ≤ weigh (table.erase key) measure := by
    refine weigh_nonneg fun key' value' h' => h key' value' ?_
    rw [getElem?_erase] at h'
    split at h' <;> simp_all
  rw [weigh_erase measure hkey] at hrest
  omega

/-- The sum over the entry of one key. -/
theorem weigh_single (table : Std.ExtTreeMap κ β) (key : κ) (measure : κ → β → Int) :
    weigh table (fun key' value => if key' = key then measure key' value else 0) = (table[key]?).elim 0 (measure key) := by
  cases hkey : table[key]? with
  | none =>
    refine weigh_eq_zero fun key' value h => if_neg ?_
    rintro rfl
    rw [hkey] at h
    cases h
  | some value =>
    have hrest : weigh (table.erase key) (fun key' value => if key' = key then measure key' value else 0) = 0 := by
      refine weigh_eq_zero fun key' value' h => if_neg ?_
      rintro rfl
      simp at h
    rw [weigh_erase _ hkey, if_pos rfl] at hrest
    exact Int.eq_of_sub_eq_zero hrest

/-- What is found in a table made of a list comes from the list. -/
theorem mem_of_getElem?_ofList {entries : List (κ × β)} {key : κ} {value : β}
    (h : (Std.ExtTreeMap.ofList entries)[key]? = some value) : (key, value) ∈ entries := by
  have hfold : ∀ (entries : List (κ × β)) (table : Std.ExtTreeMap κ β),
      (entries.foldl (fun table entry => table.insert entry.1 entry.2) table)[key]? = some value →
        (key, value) ∈ entries ∨ table[key]? = some value := by
    intro entries
    induction entries with
    | nil => intro table h; exact Or.inr h
    | cons entry entries ih =>
      intro table h
      rcases ih _ h with hmem | htable
      · exact Or.inl (List.mem_cons_of_mem _ hmem)
      · rw [getElem?_insert] at htable
        split at htable
        · rename_i hkey
          obtain rfl := Option.some.inj htable
          exact Or.inl (hkey ▸ List.mem_cons_self)
        · exact Or.inr htable
  rw [Std.ExtTreeMap.ofList_eq_foldl] at h
  rcases hfold entries ∅ h with hmem | hempty
  · exact hmem
  · simp at hempty

/-- What is found in a table made of items is the last of those that have the key. -/
theorem getElem?_ofList_map {γ : Type} [BEq κ] [LawfulBEq κ] (place : γ → κ) (items : List γ) (key : κ) :
    (Std.ExtTreeMap.ofList (items.map fun item => (place item, item)))[key]? =
      (items.filter (place · == key)).getLast? := by
  rw [Std.ExtTreeMap.ofList_eq_foldl, List.foldl_map]
  induction items using List.reverseRecOn with
  | nil => simp
  | append_singleton items item ih =>
    rw [List.foldl_append, List.foldl_cons, List.foldl_nil, getElem?_insert, ih, List.filter_append]
    by_cases hkey : place item = key <;> simp [hkey]

/-- A table is made of its entries. -/
theorem ofList_toList (table : Std.ExtTreeMap κ β) : Std.ExtTreeMap.ofList table.toList = table := by
  refine Std.ExtTreeMap.ext_getElem? fun key => ?_
  cases hkey : table[key]? with
  | none =>
    cases hfound : (Std.ExtTreeMap.ofList table.toList)[key]? with
    | none => rfl
    | some value => rw [← hkey, mem_toList.mp (mem_of_getElem?_ofList hfound)]
  | some value =>
    have hmem : key ∈ Std.ExtTreeMap.ofList table.toList := by
      rw [Std.ExtTreeMap.mem_ofList, List.contains_iff_mem]
      exact List.mem_map.mpr ⟨(key, value), mem_toList.mpr hkey, rfl⟩
    obtain ⟨value', hfound⟩ := mem_iff_exists.mp hmem
    rw [hfound, ← hkey, mem_toList.mp (mem_of_getElem?_ofList hfound)]

/-- A table whose keys are those of its values is made of these. -/
theorem ofList_values {table : Std.ExtTreeMap κ β} (keyOf : β → κ) (h : ∀ key value, table[key]? = some value → keyOf value = key) :
    Std.ExtTreeMap.ofList (table.values.map fun value => (keyOf value, value)) = table := by
  have hentries : table.values.map (fun value => (keyOf value, value)) = table.toList := by
    rw [values_eq, List.map_map]
    refine (List.map_congr_left fun entry hentry => ?_).trans (List.map_id _)
    exact Prod.ext (h entry.1 entry.2 (mem_toList.mp hentry)) rfl
  rw [hentries, ofList_toList]

/-! ## Entries moved to other keys -/

/-- Keys that no entry of a list goes to keep their value. -/
theorem getElem?_foldl_insert_of_ne {γ : Type} (place : γ → κ) (value : γ → β) {key : κ} :
    ∀ (items : List γ) (table : Std.ExtTreeMap κ β), (∀ item ∈ items, place item ≠ key) →
      (items.foldl (fun table item => table.insert (place item) (value item)) table)[key]? = table[key]? := by
  intro items
  induction items with
  | nil => intro table _; rfl
  | cons item items ih =>
    intro table h
    rw [List.foldl_cons, ih _ fun other hother => h other (List.mem_cons_of_mem _ hother), getElem?_insert,
      if_neg (h item List.mem_cons_self)]

/-- Where the entries of a list go to places of their own, each is found in its place. -/
theorem getElem?_foldl_insert_of_mem {γ : Type} (place : γ → κ) (value : γ → β) :
    ∀ (items : List γ) (table : Std.ExtTreeMap κ β), (items.map place).Nodup → ∀ item ∈ items,
      (items.foldl (fun table item => table.insert (place item) (value item)) table)[place item]? = some (value item) := by
  intro items
  induction items with
  | nil => intro table _ item h; cases h
  | cons first items ih =>
    intro table hnodup item hitem
    rw [List.map_cons, List.nodup_cons] at hnodup
    rw [List.foldl_cons]
    rcases List.mem_cons.mp hitem with rfl | hrest
    · rw [getElem?_foldl_insert_of_ne, getElem?_insert, if_pos rfl]
      intro other hother heq
      exact hnodup.1 (List.mem_map.mpr ⟨other, hother, heq⟩)
    · exact ih _ hnodup.2 item hrest

/-- One entry after the other taken out and put in elsewhere, with a value made of the old one. -/
def relocate (place : κ × β → κ) (change : β → β) (table : Std.ExtTreeMap κ β) (items : List (κ × β)) : Std.ExtTreeMap κ β :=
  items.foldl (fun table item => (table.erase item.1).insert (place item) (change item.2)) table

/-- Keys that are neither origins nor destinations keep their value. -/
theorem getElem?_relocate_of_ne (place : κ × β → κ) (change : β → β) {key : κ} :
    ∀ (items : List (κ × β)) (table : Std.ExtTreeMap κ β), (∀ item ∈ items, item.1 ≠ key ∧ place item ≠ key) →
      (relocate place change table items)[key]? = table[key]? := by
  intro items
  induction items with
  | nil => intro table _; rfl
  | cons item items ih =>
    intro table h
    obtain ⟨horigin, hplace⟩ := h item List.mem_cons_self
    have hrest := ih ((table.erase item.1).insert (place item) (change item.2)) fun other hother =>
      h other (List.mem_cons_of_mem _ hother)
    rw [relocate, List.foldl_cons]
    rw [relocate] at hrest
    rw [hrest, getElem?_insert, if_neg hplace, getElem?_erase, if_neg horigin]

/-- An origin to which nothing moves is left without a value. -/
theorem getElem?_relocate_of_origin (place : κ × β → κ) (change : β → β) {key : κ} :
    ∀ (items : List (κ × β)) (table : Std.ExtTreeMap κ β), (∀ item ∈ items, place item ≠ key) →
      (key ∈ items.map Prod.fst ∨ table[key]? = none) → (relocate place change table items)[key]? = none := by
  intro items
  induction items with
  | nil =>
    rintro table - (h | h)
    · cases h
    · exact h
  | cons item items ih =>
    intro table hplace h
    rw [relocate, List.foldl_cons]
    refine ih _ (fun other hother => hplace other (List.mem_cons_of_mem _ hother)) ?_
    rw [getElem?_insert, if_neg (hplace item List.mem_cons_self), getElem?_erase]
    rw [List.map_cons, List.mem_cons] at h
    rcases h with (rfl | h) | h
    · exact Or.inr (if_pos rfl)
    · exact Or.inl h
    · exact Or.inr (by rw [h, ite_self])

/-- Where the destinations are no origins and different from one another, every destination has its value. -/
theorem getElem?_relocate_of_place (place : κ × β → κ) (change : β → β) :
    ∀ (items : List (κ × β)) (table : Std.ExtTreeMap κ β), (items.map place).Nodup →
      (∀ item ∈ items, ∀ other ∈ items, place item ≠ other.1) → ∀ item ∈ items,
        (relocate place change table items)[place item]? = some (change item.2) := by
  intro items
  induction items with
  | nil => intro table _ _ item h; cases h
  | cons first items ih =>
    intro table hnodup hsep item hitem
    rw [List.map_cons, List.nodup_cons] at hnodup
    rcases List.mem_cons.mp hitem with rfl | hrest
    · have hlater : ∀ other ∈ items, other.1 ≠ place item ∧ place other ≠ place item := by
        intro other hother
        refine ⟨(hsep item hitem other (List.mem_cons_of_mem _ hother)).symm, fun heq => ?_⟩
        exact hnodup.1 (List.mem_map.mpr ⟨other, hother, heq⟩)
      have hkept := getElem?_relocate_of_ne place change items
        ((table.erase item.1).insert (place item) (change item.2)) hlater
      rw [getElem?_insert, if_pos rfl] at hkept
      exact hkept
    · exact ih _ hnodup.2 (fun a ha b hb => hsep a (List.mem_cons_of_mem _ ha) b (List.mem_cons_of_mem _ hb)) item hrest

/-- What holds of all entries, and of those that move where they move to, holds of all entries then. -/
theorem forall_relocate {P : κ → β → Prop} (place : κ × β → κ) (change : β → β) :
    ∀ (items : List (κ × β)) (table : Std.ExtTreeMap κ β), (∀ key value, table[key]? = some value → P key value) →
      (∀ item ∈ items, P (place item) (change item.2)) →
        ∀ key value, (relocate place change table items)[key]? = some value → P key value := by
  intro items
  induction items with
  | nil => intro table h _; exact h
  | cons item items ih =>
    intro table h hitems
    rw [relocate, List.foldl_cons]
    refine ih _ (fun key value hvalue => ?_) fun other hother => hitems other (List.mem_cons_of_mem _ hother)
    rw [getElem?_insert] at hvalue
    split at hvalue
    · rename_i hplace
      obtain rfl := Option.some.inj hvalue
      exact hplace ▸ hitems item List.mem_cons_self
    · rw [getElem?_erase] at hvalue
      split at hvalue
      · cases hvalue
      · exact h key value hvalue

/-- Entries moved to where they are. -/
theorem relocate_self (place : κ × β → κ) (change : β → β) {table : Std.ExtTreeMap κ β} :
    ∀ items : List (κ × β), (∀ item ∈ items, place item = item.1 ∧ change item.2 = item.2 ∧ table[item.1]? = some item.2) →
      relocate place change table items = table := by
  intro items
  induction items with
  | nil => intro _; rfl
  | cons item items ih =>
    intro h
    obtain ⟨hplace, hchange, hitem⟩ := h item List.mem_cons_self
    rw [relocate, List.foldl_cons, hplace, hchange, insert_erase_self hitem]
    exact ih fun other hother => h other (List.mem_cons_of_mem _ hother)

omit [DecidableEq κ] in
/-- The sum over a table whose entries have moved to keys of their own. -/
theorem weigh_rekey {table moved : Std.ExtTreeMap κ β} (place : κ → κ) (measure : κ → β → Int)
    (hinj : ∀ a ∈ table, ∀ b ∈ table, place a = place b → a = b)
    (h : ∀ key value, moved[key]? = some value ↔ ∃ origin, table[origin]? = some value ∧ place origin = key) :
    weigh moved measure = weigh table fun key value => measure (place key) value := by
  have hnodup : (table.toList.map fun entry => (place entry.1, entry.2)).Nodup := by
    refine List.Nodup.map_on ?_ (nodup_toList table)
    intro a ha b hb hab
    have hkey := hinj a.1 (mem_iff_exists.mpr ⟨a.2, mem_toList.mp ha⟩) b.1 (mem_iff_exists.mpr ⟨b.2, mem_toList.mp hb⟩)
      (congrArg Prod.fst hab)
    exact Prod.ext hkey (Prod.mk.inj hab).2
  have hperm : moved.toList.Perm (table.toList.map fun entry => (place entry.1, entry.2)) := by
    rw [List.perm_ext_iff_of_nodup (nodup_toList moved) hnodup]
    rintro ⟨key, value⟩
    rw [mem_toList, List.mem_map]
    constructor
    · intro hmoved
      obtain ⟨origin, horigin, rfl⟩ := (h key value).mp hmoved
      exact ⟨(origin, value), mem_toList.mpr horigin, rfl⟩
    · rintro ⟨entry, hentry, heq⟩
      obtain ⟨rfl, rfl⟩ := Prod.mk.inj heq
      exact (h _ _).mpr ⟨entry.1, mem_toList.mp hentry, rfl⟩
  unfold weigh
  rw [(hperm.map _).sum_eq, List.map_map]
  rfl

end TileDepot.Table
