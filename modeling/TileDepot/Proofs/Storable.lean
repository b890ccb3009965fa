import TileDepot.Page.Snapshot
import TileDepot.Proofs.Frequency
import TileDepot.Proofs.Json.Numbers
import TileDepot.Proofs.Orphans

/-!
# Ledgers that can be stored

A ledger keeps its tile sets and pages under keys that can be told from the entries alone, and numbers that fit the words they
are stored in: a ledger that is loaded does so whatever its text, and every call with numbers that fit leaves it so.
-/

namespace TileDepot

open Binary64

/-- A page whose numbers fit the words they are stored in. -/
structure Page.Fits (page : Page) : Prop where
  column : page.column ≤ maxUInt32
  row : page.row ≤ maxUInt32
  zoom : page.zoom ≤ maxUInt32
  created : Word page.created

instance (page : Page) : Decidable page.Fits :=
  decidable_of_iff (page.column ≤ maxUInt32 ∧ page.row ≤ maxUInt32 ∧ page.zoom ≤ maxUInt32 ∧ Word page.created)
    ⟨fun ⟨hcolumn, hrow, hzoom, hcreated⟩ => ⟨hcolumn, hrow, hzoom, hcreated⟩,
      fun h => ⟨h.column, h.row, h.zoom, h.created⟩⟩

/-- An entry that can be stored. -/
structure PageEntry.Storable (entry : PageEntry) : Prop where
  page : entry.page.Fits
  stats : entry.stats.Storable

/-- A call whose numbers fit their words: the place of a page, a count of hits, a minute. -/
def LedgerCall.Fits : LedgerCall → Prop
  | .addHits _ page _ hits now => page.Fits ∧ hits ≤ maxUInt64 ∧ Word now
  | .addTiles _ page _ _ _ _ now => page.Fits ∧ Word now
  | .setTruncated _ page _ now => page.Fits ∧ Word now
  | _ => True

instance : (call : LedgerCall) → Decidable call.Fits
  | .addHits _ page _ hits now => inferInstanceAs (Decidable (page.Fits ∧ hits ≤ maxUInt64 ∧ Word now))
  | .addTiles _ page _ _ _ _ now | .setTruncated _ page _ now => inferInstanceAs (Decidable (page.Fits ∧ Word now))
  | .register _ | .deleteLayer _ | .deleteGridset _ _ | .deleteParameters _ _ | .renameLayer _ _ => .isTrue trivial

/-! ## What is read -/

/-- A whole number that is read within bounds lies within them. -/
theorem Json.int?_bounds {value : Json} {low high n : Int} (h : value.int? low high = some n) : low ≤ n ∧ n ≤ high := by
  unfold Json.int? at h
  split at h
  · obtain ⟨n', -, h⟩ := Option.bind_eq_some_iff.mp h
    split at h
    · rename_i hrange
      obtain rfl := Option.some.inj h
      exact hrange
    · cases h
  · cases h

/-- A place of a page that is read is a word of 32 bits. -/
theorem Page.word?_le {value : Json} {n : Nat} (h : Page.word? value = some n) : n ≤ maxUInt32 := by
  obtain ⟨m, hm, rfl⟩ := Option.map_eq_some_iff.mp h
  have hbounds := Json.int?_bounds hm
  omega

/-- A page that is read fits. -/
theorem Page.fits_of_ofJson? {value : Json} {page : Page} (h : Page.ofJson? value = some page) : page.Fits := by
  unfold Page.ofJson? at h
  obtain ⟨fields, -, h⟩ := Option.bind_eq_some_iff.mp h
  split at h
  · obtain ⟨tileSet, -, h⟩ := Option.bind_eq_some_iff.mp h
    obtain ⟨column, hcolumn, h⟩ := Option.bind_eq_some_iff.mp h
    obtain ⟨row, hrow, h⟩ := Option.bind_eq_some_iff.mp h
    obtain ⟨zoom, hzoom, h⟩ := Option.bind_eq_some_iff.mp h
    obtain ⟨created, hcreated, h⟩ := Option.bind_eq_some_iff.mp h
    obtain rfl := Option.some.inj h
    exact ⟨Page.word?_le hcolumn, Page.word?_le hrow, Page.word?_le hzoom, Json.int?_bounds hcreated⟩
  · cases h

/-- Statistics that are read can be stored. -/
theorem PageStats.storable_of_ofJson? {value : Json} {stats : PageStats} (h : PageStats.ofJson? value = some stats) :
    stats.Storable := by
  unfold PageStats.ofJson? at h
  obtain ⟨fields, -, h⟩ := Option.bind_eq_some_iff.mp h
  split at h
  · obtain ⟨fill, hfill, h⟩ := Option.bind_eq_some_iff.mp h
    obtain ⟨frequency, hfrequency, h⟩ := Option.bind_eq_some_iff.mp h
    obtain ⟨lastAccess, hlastAccess, h⟩ := Option.bind_eq_some_iff.mp h
    obtain ⟨hits, hhits, h⟩ := Option.bind_eq_some_iff.mp h
    obtain rfl := Option.some.inj h
    have hword := Json.int?_bounds hhits
    refine ⟨Json.int?_bounds hfill, Json.isFinite_float? hfrequency, Json.int?_bounds hlastAccess, ?_⟩
    change hits.toNat ≤ maxUInt64
    omega
  · cases h

/-- A page that was read can be stored again. -/
theorem PageEntry.storable_of_ofJson? {value : Json} {entry : PageEntry} (h : PageEntry.ofJson? value = some entry) :
    entry.Storable := by
  unfold PageEntry.ofJson? at h
  obtain ⟨fields, -, h⟩ := Option.bind_eq_some_iff.mp h
  split at h
  · obtain ⟨page, hpage, h⟩ := Option.bind_eq_some_iff.mp h
    obtain ⟨stats, hstats, h⟩ := Option.bind_eq_some_iff.mp h
    obtain rfl := Option.some.inj h
    exact ⟨Page.fits_of_ofJson? hpage, PageStats.storable_of_ofJson? hstats⟩
  · cases h

/-- The tiles of a usage that was read fit in a word. -/
theorem Usage.tiles_of_ofJson? {value : Json} {usage : Usage} (h : Usage.ofJson? value = some usage) :
    minInt64 ≤ usage.tiles := by
  unfold Usage.ofJson? at h
  obtain ⟨fields, -, h⟩ := Option.bind_eq_some_iff.mp h
  split at h
  · obtain ⟨used, -, h⟩ := Option.bind_eq_some_iff.mp h
    obtain ⟨tiles, htiles, h⟩ := Option.bind_eq_some_iff.mp h
    obtain rfl := Option.some.inj h
    exact (Json.int?_bounds htiles).1
  · cases h

/-- Each item of a list that is read comes from an item that was given. -/
theorem exists_of_mapM {α β : Type} {read : α → Option β} {items : List α} {found : List β} (h : items.mapM read = some found)
    {b : β} (hb : b ∈ found) : ∃ a ∈ items, read a = some b := by
  induction items generalizing found with
  | nil =>
    obtain rfl := Option.some.inj h
    cases hb
  | cons item items ih =>
    rw [List.mapM_cons] at h
    obtain ⟨first, hfirst, h⟩ := Option.bind_eq_some_iff.mp h
    obtain ⟨others, hothers, h⟩ := Option.bind_eq_some_iff.mp h
    obtain rfl := Option.some.inj h
    rcases List.mem_cons.mp hb with rfl | hb
    · exact ⟨item, List.mem_cons_self, hfirst⟩
    · obtain ⟨a, ha, hread⟩ := ih hothers hb
      exact ⟨a, List.mem_cons_of_mem item ha, hread⟩

theorem Json.exists_of_list? {α : Type} {read : Json → Option α} {value : Json} {found : List α}
    (h : value.list? read = some found) {a : α} (ha : a ∈ found) : ∃ item, read item = some a := by
  unfold Json.list? at h
  split at h
  · obtain ⟨item, -, hread⟩ := exists_of_mapM h ha
    exact ⟨item, hread⟩
  · cases h

namespace Ledger

/-- A ledger whose keys are those of the entries, and whose entries can be stored. -/
structure Storable (ledger : Ledger) : Prop where
  set_of : ∀ {id : String} {set : TileSet}, ledger.tileSets[id]? = some set → set.id = id
  page_of : ∀ {key : PageKey} {entry : PageEntry}, ledger.pages[key]? = some entry → entry.page.key = key ∧ entry.Storable
  tiles_of : ∀ {id : String} {usage : Usage}, ledger.usage[id]? = some usage → minInt64 ≤ usage.tiles

theorem storable_empty : empty.Storable where
  set_of h := by simp [empty] at h
  page_of h := by simp [empty] at h
  tiles_of h := by simp [empty] at h

variable {ledger : Ledger} {set : TileSet} {page : Page} {now : Int}

theorem Storable.registered (h : ledger.Storable) : ledger.Registered := fun _ _ => h.set_of

/-- A ledger made of entries that can be stored. -/
theorem storable_ofEntries {sets : List TileSet} {pages : List PageEntry} {usage : List (String × Usage)}
    (hpages : ∀ entry ∈ pages, entry.Storable) (husage : ∀ item ∈ usage, minInt64 ≤ item.2.tiles) :
    (ofEntries sets pages usage).Storable := by
  refine ⟨fun hset => ?_, fun hentry => ?_, fun hitem => ?_⟩
  · obtain ⟨set, -, heq⟩ := List.mem_map.mp (Table.mem_of_getElem?_ofList hset)
    obtain ⟨rfl, rfl⟩ := Prod.mk.inj heq
    rfl
  · obtain ⟨entry, hmem, heq⟩ := List.mem_map.mp (Table.mem_of_getElem?_ofList hentry)
    obtain ⟨rfl, rfl⟩ := Prod.mk.inj heq
    exact ⟨rfl, hpages _ hmem⟩
  · exact husage _ (Table.mem_of_getElem?_ofList hitem)

/-- A ledger that is loaded can be stored, whatever the text. -/
theorem storable_of_ofSnapshot {text : String} (h : ofSnapshot text = .ok ledger) : ledger.Storable := by
  obtain ⟨value, hread⟩ : ∃ value, ofJson? value = some ledger := by
    unfold ofSnapshot Json.decode at h
    split at h
    · rename_i hsome
      obtain rfl := Except.ok.inj h
      obtain ⟨value, -, hread⟩ := Option.bind_eq_some_iff.mp hsome
      exact ⟨value, hread⟩
    · cases h
  unfold ofJson? at hread
  obtain ⟨fields, -, hread⟩ := Option.bind_eq_some_iff.mp hread
  split at hread
  · obtain ⟨sets, hsets, hread⟩ := Option.bind_eq_some_iff.mp hread
    obtain ⟨pages, hpages, hread⟩ := Option.bind_eq_some_iff.mp hread
    obtain ⟨records, -, hread⟩ := Option.bind_eq_some_iff.mp hread
    obtain ⟨usage, husage, hread⟩ := Option.bind_eq_some_iff.mp hread
    obtain rfl := Option.some.inj hread
    refine storable_ofEntries (fun entry hentry => ?_) fun item hitem => ?_
    · obtain ⟨value, hvalue⟩ := Json.exists_of_list? hpages hentry
      exact PageEntry.storable_of_ofJson? hvalue
    · obtain ⟨record, -, hrecord⟩ := exists_of_mapM husage hitem
      obtain ⟨usage, hread, rfl⟩ := Option.map_eq_some_iff.mp hrecord
      exact Usage.tiles_of_ofJson? hread
  · cases hread

/-! ## One call -/

theorem Registered.register (h : ledger.Registered) (set : TileSet) : (ledger.register set).Registered := by
  intro id found hfound
  rcases register_cases hfound with ⟨hid, rfl⟩ | hold
  · exact hid
  · exact h id found hold

theorem Registered.drop (h : ledger.Registered) (doomed : TileSet → Bool) : (ledger.drop doomed).2.Registered := by
  intro id found hfound
  change (ledger.tileSets.filter _)[id]? = some found at hfound
  rw [Std.ExtTreeMap.getElem?_filter', Option.filter_eq_some_iff] at hfound
  exact h id found hfound.1

/-- Tile sets are under their own identifiers after one of them was moved. -/
theorem Registered.moveTileSet (h : ledger.Registered) (set : TileSet) (target : String) :
    (ledger.moveTileSet set target).Registered := by
  intro id found hfound
  change ((ledger.tileSets.erase set.id).insert _ _)[id]? = some found at hfound
  rw [Table.getElem?_insert] at hfound
  split at hfound
  · rename_i hid
    obtain rfl := Option.some.inj hfound
    exact hid
  · rw [Table.getElem?_erase] at hfound
    split at hfound
    · cases hfound
    · exact h id found hfound

theorem Storable.register (h : ledger.Storable) (set : TileSet) : (ledger.register set).Storable :=
  ⟨h.registered.register set _ _, h.page_of, h.tiles_of⟩

/-- The entry of a page, whether it is there or starts afresh. -/
theorem Storable.entry (h : ledger.Storable) (hpage : page.Fits) (hnow : Word now) :
    (ledger.entry page now).page.key = page.key ∧ (ledger.entry page now).Storable := by
  rw [Ledger.entry, Std.ExtTreeMap.getD_eq_getD_getElem?]
  cases hentry : ledger.pages[page.key]? with
  | none => exact ⟨rfl, hpage, PageStats.storable_fresh hnow⟩
  | some entry => exact h.page_of hentry

/-- Statistics that can be stored are put in the place of such statistics. -/
theorem Storable.changeStats (h : ledger.Storable) (hpage : page.Fits) (hnow : Word now) {change : PageEntry → PageStats}
    (hchange : ∀ entry : PageEntry, entry.Storable → (change entry).Storable) :
    (ledger.changeStats set page now change).2.Storable := by
  refine ⟨(h.register set).set_of, fun {key entry} hentry => ?_, h.tiles_of⟩
  rw [pages_changeStats] at hentry
  split at hentry
  · rename_i hkey
    obtain rfl := Option.some.inj hentry
    obtain ⟨hsame, hstorable⟩ := h.entry hpage hnow
    exact ⟨hsame.trans hkey, hstorable.page, hchange _ hstorable⟩
  · exact h.page_of hentry

/-- A ledger can be stored after hits were recorded. -/
theorem Storable.addHits (h : ledger.Storable) (hpage : page.Fits) {hits : Nat} (hhits : hits ≤ maxUInt64) (hnow : Word now) :
    (ledger.addHits set page hits now).2.Storable :=
  h.changeStats hpage hnow fun _ hentry => hentry.stats.addHits hhits hnow hentry.page.created

/-- A ledger can be stored after tiles have come or gone. -/
theorem Storable.addTiles (h : ledger.Storable) (hpage : page.Fits) (tiles : Int) (slots : Nat) (bytes : Int) (hnow : Word now) :
    (ledger.addTiles set page tiles slots bytes now).2.Storable := by
  have hstats : (ledger.changeStats set page now fun entry => entry.stats.addTiles tiles slots).2.Storable :=
    h.changeStats hpage hnow fun entry hentry => hentry.stats.addTiles tiles slots
  refine ⟨hstats.set_of, hstats.page_of, fun husage => ?_⟩
  rw [Ledger.addTiles, usage_addTilesBy] at husage
  split at husage
  · obtain rfl := Option.some.inj husage
    exact (show minInt64 ≤ 0 by decide).trans (ofTotals_nonneg _ _).2
  · exact h.tiles_of husage

/-- A ledger can be stored after tile sets were dropped. -/
theorem Storable.drop (h : ledger.Storable) (doomed : TileSet → Bool) : (ledger.drop doomed).2.Storable := by
  refine ⟨h.registered.drop doomed _ _, fun hentry => ?_, fun husage => ?_⟩
  · change (ledger.pages.filter _)[_]? = some _ at hentry
    rw [Std.ExtTreeMap.getElem?_filter', Option.filter_eq_some_iff] at hentry
    exact h.page_of hentry.1
  · change (ledger.usage.filter _)[_]? = some _ at husage
    rw [Std.ExtTreeMap.getElem?_filter', Option.filter_eq_some_iff] at husage
    exact h.tiles_of husage.1

/-- A page is moved with its numbers, and to the key that it has then. -/
theorem Storable.moveTileSet (h : ledger.Storable) (set : TileSet) (target : String) : (ledger.moveTileSet set target).Storable := by
  refine ⟨h.registered.moveTileSet set target _ _, fun {key entry} hentry => ?_, fun husage => ?_⟩
  · change (movePages ledger.pages set.id (set.renamed target).id)[key]? = some entry at hentry
    rw [movePages_eq] at hentry
    have hmoved : ∀ item ∈ listed ledger.pages set.id, (reassign item.2 (set.renamed target).id).page.key =
        (reassign item.2 (set.renamed target).id).page.key ∧ (reassign item.2 (set.renamed target).id).Storable := by
      intro item hitem
      obtain ⟨-, hpage, hstats⟩ := h.page_of (mem_listed.mp hitem).1
      exact ⟨rfl, ⟨hpage.column, hpage.row, hpage.zoom, hpage.created⟩, hstats⟩
    exact Table.forall_relocate (P := fun key entry => entry.page.key = key ∧ entry.Storable) _ _ _ _
      (fun _ _ => h.page_of) hmoved _ _ hentry
  · obtain ⟨origin, hold⟩ := exists_of_moveUsage husage
    exact h.tiles_of hold

/-- A ledger can be stored after a layer was renamed. -/
theorem Storable.renameLayer (h : ledger.Storable) (layer target : String) : (ledger.renameLayer layer target).Storable :=
  renameLayer_of_moveTileSet layer (fun _ set hmoved => hmoved.moveTileSet set target) h

/-! ## All calls -/

/-- A ledger can be stored after any call whose numbers fit in words. -/
theorem Storable.perform (h : ledger.Storable) {call : LedgerCall} (hcall : call.Fits) : (ledger.perform call).Storable := by
  cases call with
  | register set => exact h.register set
  | addHits set page hpage hits now => exact h.addHits hcall.1 hcall.2.1 hcall.2.2
  | addTiles set page hpage tiles slots bytes now => exact h.addTiles hcall.1 tiles slots bytes hcall.2
  | setTruncated set page hpage now => exact h.changeStats hcall.1 hcall.2 fun entry hentry => hentry.stats.truncated
  | deleteLayer layer => exact h.drop _
  | deleteGridset layer gridset => exact h.drop _
  | deleteParameters layer parameters => exact h.drop _
  | renameLayer layer target => exact h.renameLayer layer target

/-- Calls whose numbers fit keep a ledger storable. -/
theorem Storable.serve (h : ledger.Storable) {calls : List LedgerCall} (hcalls : ∀ call ∈ calls, call.Fits) :
    (ledger.serve calls).Storable :=
  List.foldlRecOn (motive := Storable) calls Ledger.perform h fun _ hbefore call hcall => hbefore.perform (hcalls call hcall)

end Ledger

end TileDepot
