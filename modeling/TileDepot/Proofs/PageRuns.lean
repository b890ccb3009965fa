import Mathlib.Data.List.Perm.Basic
import TileDepot.Proofs.Holdings

/-!
# Runs of keys

Page keys are ordered by tile set first, so that the pages of a tile set are a run in the list of all pages: the run starts
behind the keys of earlier tile sets and ends before those of later ones. What is read of it is every page held of the tile set,
in the order of the keys, and depends on nothing else.
-/

namespace TileDepot

/-! ## Runs of a list -/

section Run

variable {α : Type} {early member : α → Bool}

/-- Where a member is preceded by members only, the members are at the start. -/
theorem takeWhile_eq_filter {items : List α} (h : items.Pairwise fun a b => member b = true → member a = true) :
    items.takeWhile member = items.filter member := by
  induction items with
  | nil => rfl
  | cons item items ih =>
    obtain ⟨hitem, hitems⟩ := List.pairwise_cons.mp h
    by_cases hmember : member item = true
    · rw [List.takeWhile_cons_of_pos hmember, List.filter_cons_of_pos hmember, ih hitems]
    · rw [List.takeWhile_cons_of_neg hmember, List.filter_cons_of_neg hmember, List.filter_eq_nil_iff.mpr]
      exact fun other hother hlater => hmember (hitem other hother hlater)

/-- Where the early items come first, and the members directly behind them, the members are what is read in one go. -/
theorem takeWhile_dropWhile_eq_filter {items : List α} (hearly : ∀ item, member item = true → early item = false)
    (h : items.Pairwise fun a b => (early b = true → early a = true) ∧
      (early a = false → member b = true → member a = true)) :
    (items.dropWhile early).takeWhile member = items.filter member := by
  induction items with
  | nil => rfl
  | cons item items ih =>
    cases hitem : early item with
    | true =>
      have hnot : ¬member item = true := fun hmember => by
        rw [hearly item hmember] at hitem
        cases hitem
      rw [List.dropWhile_cons_of_pos hitem, List.filter_cons_of_neg hnot, ih (List.pairwise_cons.mp h).2]
    | false =>
      rw [List.dropWhile_cons_of_neg (Bool.eq_false_iff.mp hitem)]
      -- nothing behind the first item that is not early is early
      have hlate : ∀ other ∈ item :: items, early other = false := by
        intro other hother
        rcases List.mem_cons.mp hother with rfl | hother
        · exact hitem
        · refine Bool.eq_false_iff.mpr fun htrue => ?_
          rw [((List.pairwise_cons.mp h).1 other hother).1 htrue] at hitem
          cases hitem
      exact takeWhile_eq_filter (h.imp_of_mem fun ha _ hab => hab.2 (hlate _ ha))

end Run

/-! ## Page keys -/

namespace PageKey

/-- Page keys are compared by tile set, zoom, row and column. -/
theorem compare_eq (a b : PageKey) : compare a b =
    ((compare a.tileSet b.tileSet).then ((compare a.zoom b.zoom).then
      ((compare a.row b.row).then (compare a.column b.column)))) := rfl

/-- Of two keys in order the tile sets are in order. -/
theorem tileSet_le {a b : PageKey} (h : compare a b = .lt) : (compare a.tileSet b.tileSet).isLE = true := by
  rw [compare_eq] at h
  cases htileSet : compare a.tileSet b.tileSet with
  | gt =>
    rw [htileSet] at h
    cases h
  | _ => rfl

/-- A key of a tile set is not before the first one. -/
theorem not_before_first {key : PageKey} {id : String} (h : key.tileSet = id) : (compare key ⟨id, 0, 0, 0⟩).isLT = false := by
  have hzero : ∀ n : Nat, compare n 0 ≠ .lt := fun n hn => Nat.not_lt_zero n (Nat.compare_eq_lt.mp hn)
  rw [compare_eq, h, Std.ReflOrd.compare_self]
  cases hzoom : compare key.zoom 0 with
  | lt => exact absurd hzoom (hzero _)
  | gt => rfl
  | eq =>
    cases hrow : compare key.row 0 with
    | lt => exact absurd hrow (hzero _)
    | gt => rfl
    | eq =>
      cases hcolumn : compare key.column 0 with
      | lt => exact absurd hcolumn (hzero _)
      | _ => rfl

/-- A key that is not before the first one of a tile set, but before one of the tile set, is of the tile set. -/
theorem tileSet_eq_of_between {a b : PageKey} (hfirst : (compare a ⟨b.tileSet, 0, 0, 0⟩).isLT = false)
    (h : compare a b = .lt) : a.tileSet = b.tileSet := by
  refine Std.LawfulEqOrd.eq_of_compare ?_
  have hle := tileSet_le h
  cases htileSet : compare a.tileSet b.tileSet with
  | eq => rfl
  | gt =>
    rw [htileSet] at hle
    cases hle
  | lt =>
    rw [compare_eq] at hfirst
    simp only [htileSet] at hfirst
    cases hfirst

/-- Keys of one tile set are in order as those in the same places of another one. -/
theorem compare_moved (a b : PageKey) (id : String) (h : a.tileSet = b.tileSet) :
    compare { a with tileSet := id } { b with tileSet := id } = compare a b := by
  rw [compare_eq, compare_eq, h, Std.ReflOrd.compare_self, Std.ReflOrd.compare_self]

end PageKey

namespace Ledger

variable {ledger : Ledger}

/-- The pages of a ledger are listed in the order of their keys. -/
theorem pairwise_toList (pages : Std.ExtTreeMap PageKey PageEntry) :
    pages.toList.Pairwise fun a b => compare a.1 b.1 = .lt := Std.ExtTreeMap.ordered_keys_toList

/-- The pages of a tile set are those that are listed under its identifier. -/
theorem pagesOf_eq (ledger : Ledger) (id : String) : ledger.pagesOf id = (listed ledger.pages id).map Prod.snd := by
  rw [pagesOf, listed, Std.ExtTreeMap.toList_filter]
  refine congrArg (List.map Prod.snd) (takeWhile_dropWhile_eq_filter (fun item hitem => ?_) ?_)
  · exact PageKey.not_before_first (beq_iff_eq.mp hitem)
  · refine (pairwise_toList ledger.pages).imp fun {a b} hab => ⟨fun hb => ?_, fun ha hb => ?_⟩
    · rw [Ordering.isLT_iff_eq_lt] at hb ⊢
      exact Std.TransCmp.lt_trans hab hb
    · rw [beq_iff_eq] at hb ⊢
      rw [← hb] at ha
      exact (PageKey.tileSet_eq_of_between ha hab).trans hb

/-- A page is read with a tile set where it is found under a key of the tile set. -/
theorem mem_pagesOf {id : String} {entry : PageEntry} :
    entry ∈ ledger.pagesOf id ↔ ∃ key : PageKey, ledger.pages[key]? = some entry ∧ key.tileSet = id := by
  rw [pagesOf_eq, List.mem_map]
  constructor
  · rintro ⟨item, hitem, rfl⟩
    exact ⟨item.1, mem_listed.mp hitem⟩
  · rintro ⟨key, hkey⟩
    exact ⟨(key, entry), mem_listed.mpr hkey, rfl⟩

/-- Where the same pages are held under an identifier, with their identifier changed to another, they are read in the same
order. -/
theorem pagesOf_reassigned {after : Ledger} {id target : String}
    (h : ∀ zoom row column : Nat, after.pages[(⟨target, zoom, row, column⟩ : PageKey)]? =
      (ledger.pages[(⟨id, zoom, row, column⟩ : PageKey)]?).map (reassign · target)) :
    after.pagesOf target = (ledger.pagesOf id).map (reassign · target) := by
  let moved (item : PageKey × PageEntry) : PageKey × PageEntry := ({ item.1 with tileSet := target }, reassign item.2 target)
  have hlisted : listed after.pages target = (listed ledger.pages id).map moved := by
    have hpairwise : ((listed ledger.pages id).map moved).Pairwise fun a b => compare a.1 b.1 = .lt := by
      rw [List.pairwise_map]
      refine (pairwise_toList _).imp_of_mem fun {a b} ha hb hab => ?_
      exact (PageKey.compare_moved a.1 b.1 target ((mem_listed.mp ha).2.trans (mem_listed.mp hb).2.symm)).trans hab
    have hnodup : ((listed ledger.pages id).map moved).Nodup := by
      refine hpairwise.imp fun {a b} hab heq => ?_
      rw [heq, Std.ReflOrd.compare_self] at hab
      cases hab
    refine List.Perm.eq_of_pairwise (fun a b _ _ hab hba => ?_) (pairwise_toList _) hpairwise ?_
    · rw [Std.OrientedCmp.gt_of_lt hab] at hba
      cases hba
    · refine (List.perm_ext_iff_of_nodup (Table.nodup_toList _) hnodup).mpr ?_
      intro item
      rw [List.mem_map]
      constructor
      · intro hitem
        obtain ⟨hpage, hid⟩ := mem_listed.mp hitem
        obtain ⟨⟨tileSet, zoom, row, column⟩, entry⟩ := item
        obtain rfl : tileSet = target := hid
        rw [h] at hpage
        obtain ⟨origin, horigin, rfl⟩ := Option.map_eq_some_iff.mp hpage
        exact ⟨(⟨id, zoom, row, column⟩, origin), mem_listed.mpr ⟨horigin, rfl⟩, rfl⟩
      · rintro ⟨origin, horigin, rfl⟩
        obtain ⟨hpage, rfl⟩ := mem_listed.mp horigin
        refine mem_listed.mpr ⟨?_, rfl⟩
        exact (h _ _ _).trans (by rw [hpage]; rfl)
  rw [pagesOf_eq, pagesOf_eq, hlisted, List.map_map, List.map_map]
  rfl

/-- The pages that are read are those held. -/
theorem pagesOf_congr {after : Ledger} {id : String} (h : after.holding id = ledger.holding id) :
    after.pagesOf id = ledger.pagesOf id := by
  have hpages : (after.pages.filter fun key _ => key.tileSet == id) = ledger.pages.filter fun key _ => key.tileSet == id := by
    refine Std.ExtTreeMap.ext_getElem? fun key => ?_
    rw [Std.ExtTreeMap.getElem?_filter', Std.ExtTreeMap.getElem?_filter']
    by_cases hkey : key.tileSet = id
    · rw [← hkey] at h
      rw [pages_of_holding key h, pages_of_holding key rfl]
    · have hnone : ∀ found : Option PageEntry, found.filter (fun _ => key.tileSet == id) = none := fun found =>
        Option.filter_eq_none_iff.mpr fun _ _ => mt beq_iff_eq.mp hkey
      rw [hnone, hnone]
  rw [pagesOf_eq, pagesOf_eq, listed, listed, hpages]

end Ledger

end TileDepot
