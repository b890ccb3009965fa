import TileDepot.Proofs.Shelved

/-!
# Reading the pages of a tile set and of a layer

The pages of a tile set are read in one go from the first key that a page of it may have. Whatever a ledger has been asked to
record, or was loaded from, nothing is missed and nothing is read twice, and the pages come level by level, row by row. The pages
of a layer are those of its tile sets, one tile set after the other.
-/

namespace TileDepot

/-- Pages of one tile set have keys in the order in which pages are listed. -/
theorem Page.compare_key_eq_lt_iff {a b : Page} (h : a.tileSet = b.tileSet) :
    compare a.key b.key = .lt ↔ a.index.Precedes b.index := by
  have hsame : compare a.key.tileSet b.key.tileSet = .eq := by
    change compare a.tileSet b.tileSet = .eq
    rw [h, Std.ReflOrd.compare_self]
  rw [PageKey.compare_eq, hsame, Ordering.eq_then]
  simp only [Ordering.then_eq_lt, Nat.compare_eq_lt, Nat.compare_eq_eq]
  rfl

/-- Pages of different tile sets have keys in the order of the tile sets. -/
theorem PageKey.lt_of_tileSet_lt {a b : PageKey} (h : compare a.tileSet b.tileSet = .lt) : compare a b = .lt := by
  rw [PageKey.compare_eq, h]
  rfl

namespace Ledger

variable {ledger : Ledger}

/-- Tile sets are under their own identifiers after a layer was renamed. -/
theorem Registered.renameLayer (h : ledger.Registered) (layer target : String) : (ledger.renameLayer layer target).Registered :=
  renameLayer_of_moveTileSet layer (fun _ set hmoved => hmoved.moveTileSet set target) h

/-- In a ledger that was reached tile sets are under their own identifiers. -/
theorem Reached.registered (h : ledger.Reached) : ledger.Registered := by
  induction h with
  | empty =>
    intro id set hset
    simp [Ledger.empty] at hset
  | load h => exact (storable_of_ofSnapshot h).registered
  | register _ set ih => exact ih.register set
  | addHits _ set page hits now ih => exact ih.register set
  | addTiles _ set page tiles slots bytes now ih => exact ih.register set
  | setTruncated _ set page now ih => exact ih.register set
  | drop _ doomed ih => exact ih.drop doomed
  | renameLayer _ layer target ih => exact ih.renameLayer layer target

/-! ## The pages of a tile set -/

/-- A page is read with its tile set. -/
theorem Shelved.mem_pagesOf_iff (h : ledger.Shelved) {id : String} {entry : PageEntry} :
    entry ∈ ledger.pagesOf id ↔ ledger.pages[entry.page.key]? = some entry ∧ entry.page.tileSet = id := by
  rw [mem_pagesOf]
  constructor
  · rintro ⟨key, hkey, hid⟩
    obtain rfl := h key entry hkey
    exact ⟨hkey, hid⟩
  · rintro ⟨hkey, hid⟩
    exact ⟨entry.page.key, hkey, hid⟩

/-- The pages of a tile set are read in the order of their keys. -/
theorem Shelved.pairwise_pagesOf (h : ledger.Shelved) (id : String) :
    (ledger.pagesOf id).Pairwise fun a b => compare a.page.key b.page.key = .lt := by
  rw [pagesOf_eq, List.pairwise_map]
  refine (pairwise_toList _).imp_of_mem fun {a b} ha hb hab => ?_
  rwa [h a.1 a.2 (mem_listed.mp ha).1, h b.1 b.2 (mem_listed.mp hb).1]

/-! ## The pages of a layer -/

/-- The tile sets of a layer are read in the order of their identifiers. -/
theorem Registered.pairwise_tileSetsOf (h : ledger.Registered) (layer : String) :
    (ledger.tileSetsOf layer).Pairwise fun a b => compare a.id b.id = .lt := by
  have hall : ledger.allTileSets.Pairwise fun a b => compare a.id b.id = .lt := by
    rw [allTileSets, Table.values_eq, List.pairwise_map]
    refine Std.ExtTreeMap.ordered_keys_toList.imp_of_mem fun {a b} ha hb hab => ?_
    rwa [h a.1 a.2 (Table.mem_toList.mp ha), h b.1 b.2 (Table.mem_toList.mp hb)]
  exact hall.sublist List.filter_sublist

/-- A page is read with the layer of its tile set. -/
theorem Reached.mem_pagesOfLayer (h : ledger.Reached) {layer : String} {entry : PageEntry} :
    entry ∈ ledger.pagesOfLayer layer ↔ ledger.pages[entry.page.key]? = some entry ∧
      ∃ set, ledger.tileSets[entry.page.tileSet]? = some set ∧ set.layer = layer := by
  rw [pagesOfLayer, List.mem_flatMap]
  constructor
  · rintro ⟨set, hset, hentry⟩
    obtain ⟨hregistered, hlayer⟩ := h.registered.mem_tileSetsOf.mp hset
    obtain ⟨hkey, hid⟩ := h.shelved.mem_pagesOf_iff.mp hentry
    exact ⟨hkey, set, by rwa [hid], hlayer⟩
  · rintro ⟨hkey, set, hset, hlayer⟩
    have hid : set.id = entry.page.tileSet := h.registered _ set hset
    exact ⟨set, h.registered.mem_tileSetsOf.mpr ⟨by rwa [hid], hlayer⟩, h.shelved.mem_pagesOf_iff.mpr ⟨hkey, hid.symm⟩⟩

/-- The pages of a layer are read in the order of their keys, too. -/
theorem Reached.pairwise_pagesOfLayer (h : ledger.Reached) (layer : String) :
    (ledger.pagesOfLayer layer).Pairwise fun a b => compare a.page.key b.page.key = .lt := by
  rw [pagesOfLayer, List.pairwise_flatMap]
  refine ⟨fun set _ => h.shelved.pairwise_pagesOf set.id, ?_⟩
  refine (h.registered.pairwise_tileSetsOf layer).imp fun {set set'} hsets a ha b hb => PageKey.lt_of_tileSet_lt ?_
  change compare a.page.tileSet b.page.tileSet = .lt
  rwa [(h.shelved.mem_pagesOf_iff.mp ha).2, (h.shelved.mem_pagesOf_iff.mp hb).2]

/-- What is read of a tile set is every page of it that is held, once, in the order of zooms, rows and columns. What is read of a
layer is every page that is held of a tile set registered for it, once. -/
theorem reads_every_page (h : ledger.Reached) :
    (∀ id : String,
      (∀ entry, entry ∈ ledger.pagesOf id ↔ ledger.pages[entry.page.key]? = some entry ∧ entry.page.tileSet = id) ∧
        ((ledger.pagesOf id).map (·.page.key)).Nodup ∧
        (ledger.pagesOf id).Pairwise fun a b => a.page.index.Precedes b.page.index) ∧
      ∀ layer : String,
        (∀ entry, entry ∈ ledger.pagesOfLayer layer ↔ ledger.pages[entry.page.key]? = some entry ∧
          ∃ set, ledger.tileSets[entry.page.tileSet]? = some set ∧ set.layer = layer) ∧
        ((ledger.pagesOfLayer layer).map (·.page.key)).Nodup := by
  refine ⟨fun id => ⟨fun _ => h.shelved.mem_pagesOf_iff, h.shelved.nodup_pagesOf id, ?_⟩, fun layer =>
    ⟨fun _ => h.mem_pagesOfLayer, ?_⟩⟩
  · refine (h.shelved.pairwise_pagesOf id).imp_of_mem fun {a b} ha hb hab => ?_
    have hsame : a.page.tileSet = b.page.tileSet :=
      (h.shelved.mem_pagesOf_iff.mp ha).2.trans (h.shelved.mem_pagesOf_iff.mp hb).2.symm
    exact (Page.compare_key_eq_lt_iff hsame).mp hab
  · refine List.pairwise_map.mpr ((h.pairwise_pagesOfLayer layer).imp fun {a b} hab heq => ?_)
    rw [heq, Std.ReflOrd.compare_self] at hab
    cases hab

/-- The identifier of one tile set begins with that of another, and that of a third with that of the second; the pages of the
first are read without those of the others, and the layer has the pages of all three. -/
theorem reads_every_page_of_roads :
    let plain := TileSet.of "roads" "world" "png" none
    let night := TileSet.of "roads" "world" "png" (some "night")
    let nightly := TileSet.of "roads" "world" "png" (some "nightly")
    let lanes := TileSet.of "lanes" "world" "png" none
    let page (set : TileSet) (column row zoom : Nat) : Page := ⟨set.id, column, row, zoom, 0⟩
    let asked := [(night, 2, 0, 3), (plain, 1, 1, 2), (nightly, 0, 0, 0), (plain, 9, 0, 2), (lanes, 0, 0, 0), (plain, 0, 5, 1)]
    let ledger := asked.foldl
      (fun ledger (set, column, row, zoom) => (ledger.addHits set (page set column row zoom) 1 7).2) empty
    ledger.Reached ∧
      (ledger.pagesOf plain.id).map (·.page) = [page plain 0 5 1, page plain 9 0 2, page plain 1 1 2] ∧
      (ledger.pagesOfLayer "roads").map (·.page) =
        [page plain 0 5 1, page plain 9 0 2, page plain 1 1 2, page night 2 0 3, page nightly 0 0 0] ∧
      (ledger.pagesOf plain.id).Pairwise (fun a b => a.page.index.Precedes b.page.index) ∧
      ((ledger.pagesOfLayer "roads").map (·.page.key)).Nodup := by
  intro plain night nightly lanes page asked ledger
  have h : ledger.Reached := Reached.empty.addHits _ _ _ _ |>.addHits _ _ _ _ |>.addHits _ _ _ _ |>.addHits _ _ _ _
    |>.addHits _ _ _ _ |>.addHits _ _ _ _
  obtain ⟨hsets, hlayers⟩ := reads_every_page h
  exact ⟨h, by decide +kernel, by decide +kernel, (hsets plain.id).2.2, (hlayers "roads").2⟩

end Ledger

end TileDepot
