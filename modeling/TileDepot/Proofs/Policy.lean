import TileDepot.Eviction.Policy
import TileDepot.Proofs.Number.Ranks

/-!
# The order of a policy

Entries go by a measure of theirs, then by zoom, the highest first, and then by key. Whatever the measure is, entries for
different pages are never equal: they are put in one order and no other, wherever they come from. A page of which nothing is
recorded goes before every page that was asked for, under either policy.
-/

namespace TileDepot.Policy

/-- The order of two entries by a measure of theirs. -/
def orderBy (measure : PageEntry → Int) : PageEntry → PageEntry → Ordering :=
  compareLex (compareOn measure)
    (compareLex (fun a b => compare b.page.zoom a.page.zoom) (compareOn fun entry => entry.page.key))

/-- Entries sorted by an order. -/
def sortBy (order : PageEntry → PageEntry → Ordering) (entries : List PageEntry) : List PageEntry :=
  entries.mergeSort fun a b => (order a b).isLE

/-- One entry goes before another: it measures less, or as much with a higher zoom, or both alike with a lesser key. -/
def Precedes (measure : PageEntry → Int) (a b : PageEntry) : Prop :=
  measure a < measure b ∨ measure a = measure b ∧
    (b.page.zoom < a.page.zoom ∨ b.page.zoom = a.page.zoom ∧ compare a.page.key b.page.key = .lt)

instance (measure : PageEntry → Int) (a b : PageEntry) : Decidable (Precedes measure a b) :=
  inferInstanceAs (Decidable (_ ∨ _ ∧ (_ ∨ _ ∧ _)))

variable {measure : PageEntry → Int} {entries : List PageEntry} {a b : PageEntry}

/-! ## Two entries -/

instance (measure : PageEntry → Int) : Std.TransCmp (orderBy measure) :=
  haveI : Std.TransCmp fun a b : PageEntry => compareOn (fun entry : PageEntry => entry.page.zoom) b a := Std.TransCmp.opposite
  inferInstanceAs (Std.TransCmp (compareLex _ (compareLex (fun a b : PageEntry =>
    compareOn (fun entry : PageEntry => entry.page.zoom) b a) _)))

/-- One entry is before another just if it precedes it. -/
theorem orderBy_eq_lt_iff : orderBy measure a b = .lt ↔ Precedes measure a b := by
  simp only [orderBy, compareLex, compareOn, Ordering.then_eq_lt, Int.compare_eq_lt, Int.compare_eq_eq, Nat.compare_eq_lt,
    Nat.compare_eq_eq]
  rfl

/-- Entries that are equal in an order are for the same page. -/
theorem key_eq_of_orderBy_eq (h : orderBy measure a b = .eq) : a.page.key = b.page.key := by
  simp only [orderBy, compareLex, Ordering.then_eq_eq] at h
  exact Std.LawfulEqOrd.eq_of_compare h.2.2

/-- Of two entries only one precedes the other. -/
theorem not_precedes_of_precedes (h : Precedes measure a b) : ¬Precedes measure b a := by
  rw [← orderBy_eq_lt_iff] at h ⊢
  rw [Std.OrientedCmp.gt_of_lt h]
  exact nofun

/-! ## All entries -/

/-- Entries that are sorted are the same entries. -/
theorem perm_sortBy (order : PageEntry → PageEntry → Ordering) (entries : List PageEntry) :
    (sortBy order entries).Perm entries := List.mergeSort_perm _ _

/-- Entries for different pages are sorted with none equal to another. -/
theorem pairwise_sortBy (h : (entries.map (·.page.key)).Nodup) :
    (sortBy (orderBy measure) entries).Pairwise (Precedes measure) := by
  have hsorted : (sortBy (orderBy measure) entries).Pairwise fun a b => (orderBy measure a b).isLE = true := by
    refine List.pairwise_mergeSort (fun a b c (hab : (orderBy measure a b).isLE = true) hbc =>
      Std.TransCmp.isLE_trans hab hbc) (fun a b => ?_) entries
    cases horder : orderBy measure a b with
    | gt => rw [Std.OrientedCmp.lt_of_gt horder, Ordering.isLE_lt, Bool.or_true]
    | _ => rfl
  have hdistinct : (sortBy (orderBy measure) entries).Pairwise fun a b => a.page.key ≠ b.page.key :=
    List.pairwise_map.mp (((perm_sortBy _ entries).map _).nodup_iff.mpr h)
  refine (hsorted.and hdistinct).imp fun {a b} hab => orderBy_eq_lt_iff.mp ?_
  cases horder : orderBy measure a b with
  | lt => rfl
  | eq => exact absurd (key_eq_of_orderBy_eq horder) hab.2
  | gt =>
    rw [horder] at hab
    cases hab.1

/-- Entries in order are in the only order. -/
theorem eq_of_pairwise {sorted sorted' : List PageEntry} (h : sorted.Pairwise (Precedes measure))
    (h' : sorted'.Pairwise (Precedes measure)) (hperm : sorted.Perm sorted') : sorted = sorted' :=
  hperm.eq_of_pairwise (fun _ _ _ _ hab hba => absurd hba (not_precedes_of_precedes hab)) h h'

/-- Of two entries of a list in order, the one that goes before the other stands before it. -/
theorem sublist_of_precedes {sorted : List PageEntry} (hsorted : sorted.Pairwise (Precedes measure)) (ha : a ∈ sorted)
    (hb : b ∈ sorted) (h : Precedes measure a b) : [a, b].Sublist sorted := by
  induction sorted with
  | nil => cases ha
  | cons first others ih =>
    obtain ⟨hfirst, hothers⟩ := List.pairwise_cons.mp hsorted
    rcases List.mem_cons.mp ha with rfl | ha'
    · rcases List.mem_cons.mp hb with rfl | hb'
      · exact absurd h (not_precedes_of_precedes h)
      · exact (List.singleton_sublist.mpr hb').cons_cons a
    · rcases List.mem_cons.mp hb with rfl | hb'
      · exact absurd (hfirst a ha') (not_precedes_of_precedes h)
      · exact (ih hothers ha' hb').cons first

/-- An order, and a sorting by it, that settle in which order some entries go. -/
structure Settles (order : PageEntry → PageEntry → Ordering) (sort : List PageEntry → List PageEntry)
    (measure : PageEntry → Int) (entries : List PageEntry) : Prop where
  lt_iff : ∀ a b, order a b = .lt ↔ Precedes measure a b
  swap : ∀ a b, order b a = (order a b).swap
  trans : ∀ a b c, order a b = .lt → order b c = .lt → order a c = .lt
  total : ∀ a ∈ entries, ∀ b ∈ entries, a ≠ b → order a b = .lt ∨ order b a = .lt
  perm : (sort entries).Perm entries
  ascending : (sort entries).Pairwise (Precedes measure)
  stands : ∀ a ∈ entries, ∀ b ∈ entries, order a b = .lt → [a, b].Sublist (sort entries)
  only : ∀ sorted : List PageEntry, sorted.Perm entries → sorted.Pairwise (Precedes measure) → sort entries = sorted
  unique : ∀ entries', entries'.Perm entries → sort entries' = sort entries

/-- An order by a measure settles entries with different keys. -/
theorem settles_orderBy (measure : PageEntry → Int) (h : (entries.map (·.page.key)).Nodup) :
    Settles (orderBy measure) (sortBy (orderBy measure)) measure entries where
  lt_iff _ _ := orderBy_eq_lt_iff
  swap _ _ := Std.OrientedCmp.eq_swap
  trans _ _ _ := Std.TransCmp.lt_trans
  total a ha b hb hne := by
    cases horder : orderBy measure a b with
    | lt => exact Or.inl rfl
    | gt => exact Or.inr (Std.OrientedCmp.lt_of_gt horder)
    | eq => exact absurd (List.inj_on_of_nodup_map h ha hb (key_eq_of_orderBy_eq horder)) hne
  perm := perm_sortBy _ entries
  ascending := pairwise_sortBy h
  stands a ha b hb hlt := by
    have hperm := perm_sortBy (orderBy measure) entries
    exact sublist_of_precedes (pairwise_sortBy h) (hperm.mem_iff.mpr ha) (hperm.mem_iff.mpr hb) (orderBy_eq_lt_iff.mp hlt)
  only sorted hperm hsorted := eq_of_pairwise (pairwise_sortBy h) hsorted ((perm_sortBy _ entries).trans hperm.symm)
  unique entries' hperm := by
    have h' : (entries'.map (·.page.key)).Nodup := (hperm.map _).nodup_iff.mpr h
    exact eq_of_pairwise (pairwise_sortBy h') (pairwise_sortBy h)
      ((perm_sortBy _ entries').trans (hperm.trans (perm_sortBy _ entries).symm))

/-! ## The policies -/

/-- A policy orders entries by its measure. -/
theorem order_eq (policy : Policy) : policy.order = orderBy fun entry => policy.measure entry.stats := rfl

/-- A policy sorts entries by its order. -/
theorem sort_eq (policy : Policy) : policy.sort = sortBy policy.order := rfl

/-- A policy settles entries with different keys. -/
theorem settles (policy : Policy) (h : (entries.map (·.page.key)).Nodup) :
    Settles policy.order policy.sort (fun entry => policy.measure entry.stats) entries := by
  rw [sort_eq, order_eq]
  exact settles_orderBy _ h

/-- Entries that come in order stay as they come. -/
theorem sort_of_isChain (policy : Policy) (h : entries.IsChain fun a b => policy.order a b = .lt) :
    policy.sort entries = entries := by
  rw [order_eq] at h
  have : Trans (fun a b : PageEntry => orderBy (fun entry => policy.measure entry.stats) a b = .lt)
      (fun a b => orderBy (fun entry => policy.measure entry.stats) a b = .lt)
      (fun a b => orderBy (fun entry => policy.measure entry.stats) a b = .lt) := ⟨Std.TransCmp.lt_trans⟩
  exact List.mergeSort_of_pairwise (h.pairwise.imp fun hab => by rw [order_eq, hab]; rfl)

/-- A page of which nothing is recorded goes before one that is used at all. -/
theorem fresh_lt_of_place_pos {bits : PageEntry → UInt64} {cold entry : PageEntry} (hcold : bits cold = 0)
    (h : 0 < (bits entry).toNat ∧ (bits entry).toNat < 2 ^ 63) :
    orderBy (fun entry => Binary64.place (bits entry)) cold entry = .lt := by
  refine orderBy_eq_lt_iff.mpr (Or.inl ?_)
  have hpos := Binary64.place_pos_iff.mpr h
  rwa [← show Binary64.place (bits cold) = 0 by rw [hcold]; rfl] at hpos

/-- By frequency a page of which nothing is recorded goes before one that is used at all. -/
theorem fresh_lt_of_frequency_pos (page : Page) {entry : PageEntry} (h : 0 < entry.stats.frequency) :
    leastFrequent.order ⟨page, .fresh 0⟩ entry = .lt :=
  orderBy_eq_lt_iff.mpr (Or.inl (Binary64.rank_lt_of_lt h))

/-- Where no two entries are for the same page, a policy puts them in one order, however they were collected: by last access or by
frequency, by zoom from the highest one down, and by key. That is so for any patterns of bits as frequencies, which all differ in
the total order, and numbers among them ascend. A page of which nothing is recorded goes before every page that has been
accessed, and before every page that is used at all. -/
theorem orders_once (h : (entries.map (·.page.key)).Nodup) :
    Settles leastRecent.order leastRecent.sort (·.stats.lastAccess) entries ∧
      Settles leastFrequent.order leastFrequent.sort (fun entry => Binary64.place entry.stats.frequency.toBits) entries ∧
      ((leastFrequent.sort entries).Pairwise fun a b => ¬b.stats.frequency < a.stats.frequency) ∧
      (∀ bits : PageEntry → UInt64, Settles (orderBy fun entry => Binary64.place (bits entry))
        (sortBy (orderBy fun entry => Binary64.place (bits entry))) (fun entry => Binary64.place (bits entry)) entries) ∧
      (∀ bits bits' : UInt64, Binary64.place bits = Binary64.place bits' → bits = bits') ∧
      ∀ (page : Page) (entry : PageEntry),
        (0 < entry.stats.lastAccess → leastRecent.order ⟨page, .fresh 0⟩ entry = .lt) ∧
        (0 < entry.stats.frequency → leastFrequent.order ⟨page, .fresh 0⟩ entry = .lt) ∧
        ∀ bits : PageEntry → UInt64, bits ⟨page, .fresh 0⟩ = 0 → 0 < (bits entry).toNat ∧ (bits entry).toNat < 2 ^ 63 →
          orderBy (fun entry => Binary64.place (bits entry)) ⟨page, .fresh 0⟩ entry = .lt := by
  refine ⟨leastRecent.settles h, leastFrequent.settles h, ?_, fun bits => settles_orderBy _ h, fun _ _ => Binary64.place_inj,
    fun page entry => ⟨fun haccess => orderBy_eq_lt_iff.mpr (Or.inl haccess), fresh_lt_of_frequency_pos page, fun bits =>
      fresh_lt_of_place_pos⟩⟩
  refine (leastFrequent.settles h).ascending.imp fun {a b} hab hlt => ?_
  have hrank : leastFrequent.measure b.stats < leastFrequent.measure a.stats := Binary64.rank_lt_of_lt hlt
  rcases hab with hless | ⟨hsame, -⟩
  · exact lt_asymm hless hrank
  · exact hrank.ne' hsame

/-- Three pages that were used alike and one of which nothing is recorded: either policy takes the latter first, then those of the
higher zoom by their keys, whichever way round they are given. It goes before the others with a not-a-number as frequency, too. -/
theorem orders_once_of_roads :
    let used : PageStats := { PageStats.fresh 7 with frequency := 0.5 }
    let cold : PageEntry := ⟨⟨"roads", 4, 0, 3, 0⟩, .fresh 0⟩
    let street : PageEntry := ⟨⟨"roads", 1, 0, 3, 0⟩, used⟩
    let lane : PageEntry := ⟨⟨"lanes", 0, 1, 4, 0⟩, used⟩
    let road : PageEntry := ⟨⟨"roads", 0, 1, 4, 0⟩, used⟩
    let entries := [street, road, lane, cold]
    let bits (entry : PageEntry) : UInt64 := if entry.page.column = 4 then 0 else 0x7ff0000000000001
    (entries.map (·.page.key)).Nodup ∧
      leastRecent.sort entries = [cold, lane, road, street] ∧ leastFrequent.sort entries = [cold, lane, road, street] ∧
      leastRecent.sort entries.reverse = leastRecent.sort entries ∧
      leastFrequent.sort entries.reverse = leastFrequent.sort entries ∧
      (0 < used.lastAccess ∧ leastRecent.order cold street = .lt) ∧
      (0 < used.frequency ∧ leastFrequent.order cold street = .lt) ∧
      (bits cold = 0 ∧ (0 < (bits street).toNat ∧ (bits street).toNat < 2 ^ 63) ∧
        orderBy (fun entry => Binary64.place (bits entry)) cold street = .lt) := by
  intro used cold street lane road entries bits
  have hkeys : (entries.map (·.page.key)).Nodup := by decide
  obtain ⟨hrecent, hfrequent, -, -, -, hcold⟩ := orders_once hkeys
  obtain ⟨haccessed, hused, hbits⟩ := hcold cold.page street
  have hperm : [cold, lane, road, street].Perm entries := List.reverse_perm entries
  have haccess : 0 < used.lastAccess := by decide
  have hfrequency : 0 < used.frequency := by decide +kernel
  exact ⟨hkeys, hrecent.only _ hperm (by decide), hfrequent.only _ hperm (by decide +kernel), hrecent.unique _ hperm,
    hfrequent.unique _ hperm, ⟨haccess, haccessed haccess⟩, ⟨hfrequency, hused hfrequency⟩, rfl, by decide,
    hbits bits rfl (by decide)⟩

end TileDepot.Policy
