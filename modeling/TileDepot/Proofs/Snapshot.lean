import TileDepot.Proofs.Amounts
import TileDepot.Proofs.Storable

/-!
# Snapshots are read back

What a ledger is stored as is read back field by field: every record from its document, the tables from the lists of their
entries, which say themselves under which keys they stand. Only the frequencies of use may be rounded on the way.
-/

namespace TileDepot

open Binary64 Json

/-! ## Records -/

/-- Fields under their names mean their values under these names. -/
theorem Json.Doc.means_record {docs : List Doc} {values : List Json} (h : List.Forall₂ Means docs values)
    (names : List String) : (Doc.object (names.zip docs)).Means (.object ((names.map some).zip values)) := by
  have hzip : ∀ names : List String, (names.zip (docs.zip values)).map (fun field => (field.1, field.2.1)) = names.zip docs ∧
      (names.zip (docs.zip values)).map (fun field => (some field.1, field.2.2)) = (names.map some).zip values := by
    induction h with
    | nil => simp
    | cons _ _ ih =>
      intro names
      cases names with
      | nil => exact ⟨rfl, rfl⟩
      | cons name names => simp [ih names]
  rw [← (hzip names).1, ← (hzip names).2]
  exact Means.object _ fun field hfield => (List.forall₂_iff_zip.mp h).2 (List.of_mem_zip hfield).2

/-- A record is restored from its fields, all given and each of another name. -/
theorem Json.Doc.restores_record {α : Type} (fields : List (String × Presence)) (hnames : (fields.map Prod.fst).Nodup)
    {docs : List Doc} {values : List Json} (h : List.Forall₂ Means docs values) (hlength : fields.length = values.length)
    {read : List (Option Json) → Option α} {a : α} (hread : read (values.map some) = some a) :
    (Doc.object ((fields.map Prod.fst).zip docs)).Restores (fun value => value.record? fields >>= read) a := by
  have hfields : (fields.zip values).map Prod.fst = fields := List.map_fst_zip hlength.le
  have hvalues : (fields.zip values).map Prod.snd = values := List.map_snd_zip hlength.ge
  have hrecord := record?_object (fields.zip values) (by
    rw [show (fun field : (String × Presence) × Json => field.1.1) = Prod.fst ∘ Prod.fst from rfl, ← List.map_map, hfields]
    exact hnames)
  have hobject : (fields.zip values).map (fun field => (some field.1.1, field.2)) =
      ((fields.map Prod.fst).map some).zip values := by
    rw [List.map_map, List.zip_map_left]
    rfl
  rw [hobject, hfields, show (fun field : (String × Presence) × Json => some field.2) = some ∘ Prod.snd from rfl,
    ← List.map_map, hvalues] at hrecord
  refine ⟨_, means_record h (fields.map Prod.fst), ?_⟩
  simp only [hrecord, Option.bind_eq_bind, Option.bind_some, hread]

open Doc

/-- A tile set that is stored is restored. -/
theorem TileSet.restores_doc (set : TileSet) : set.doc.Restores TileSet.ofJson? set := by
  obtain ⟨id, hid, hid'⟩ := restores_text set.id
  obtain ⟨layer, hlayer, hlayer'⟩ := restores_text set.layer
  obtain ⟨gridset, hgridset, hgridset'⟩ := restores_text set.gridset
  obtain ⟨format, hformat, hformat'⟩ := restores_text set.format
  obtain ⟨parameters, hparameters, hparameters'⟩ := restores_nullable set.parameters
  refine restores_record TileSet.storedFields (by decide) (.cons hid (.cons hlayer (.cons hgridset (.cons hformat
    (.cons hparameters .nil))))) rfl ?_
  simp [hid', hlayer', hgridset', hformat', hparameters']

/-- A page is restored where its numbers fit. -/
theorem Page.restores_doc {page : Page} (h : page.Fits) : page.doc.Restores Page.ofJson? page := by
  have hnat : ∀ n ≤ maxUInt32, (Doc.nat n).Restores (Json.int? 0 maxUInt32) n := fun _ hn => restores_nat hn (by decide)
  have hmax : maxInt64 ≤ maxUInt64 := by decide
  obtain ⟨tileSet, htileSet, htileSet'⟩ := restores_text page.tileSet
  obtain ⟨column, hcolumn, hcolumn'⟩ := hnat page.column h.column
  obtain ⟨row, hrow, hrow'⟩ := hnat page.row h.row
  obtain ⟨zoom, hzoom, hzoom'⟩ := hnat page.zoom h.zoom
  obtain ⟨created, hcreated, hcreated'⟩ := restores_int h.created.1 (h.created.2.trans hmax) h.created
  refine restores_record Page.storedFields (by decide) (.cons htileSet (.cons hcolumn (.cons hrow (.cons hzoom
    (.cons hcreated .nil))))) rfl ?_
  simp [Page.word?, htileSet', hcolumn', hrow', hzoom', hcreated']

/-- The statistics with the frequency that is read from its text. -/
def PageStats.reread (stats : PageStats) : PageStats :=
  { stats with frequency := (reread? stats.frequency).getD stats.frequency }

/-- The entry with the frequency that is read from its text. -/
def PageEntry.reread (entry : PageEntry) : PageEntry := { entry with stats := entry.stats.reread }

/-- Statistics are restored but for the frequency, which is read from its text. -/
theorem PageStats.restores_doc {stats : PageStats} (h : stats.Storable) {frequency : Float}
    (hfrequency : reread? stats.frequency = some frequency) : stats.doc.Restores PageStats.ofJson? stats.reread := by
  have hmax : maxInt64 ≤ maxUInt64 := by decide
  obtain ⟨fill, hfill, hfill'⟩ := restores_int h.fill.1 (h.fill.2.trans hmax) h.fill
  obtain ⟨frequent, hfrequent, hfrequent'⟩ := restores_float hfrequency
  obtain ⟨lastAccess, hlastAccess, hlastAccess'⟩ := restores_int h.lastAccess.1 (h.lastAccess.2.trans hmax) h.lastAccess
  obtain ⟨hits, hhits, hhits'⟩ := restores_nat h.hits le_rfl
  refine restores_record PageStats.storedFields (by decide) (.cons hfill (.cons hfrequent (.cons hlastAccess
    (.cons hhits .nil)))) rfl ?_
  simp [PageStats.word?, PageStats.reread, hfill', hfrequent', hlastAccess', hhits', hfrequency]

/-- A page that is stored is restored with its frequency as it is read again. -/
theorem PageEntry.restores_doc {entry : PageEntry} (h : entry.Storable) {frequency : Float}
    (hfrequency : reread? entry.stats.frequency = some frequency) : entry.doc.Restores PageEntry.ofJson? entry.reread := by
  obtain ⟨page, hpage, hpage'⟩ := Page.restores_doc h.page
  obtain ⟨stats, hstats, hstats'⟩ := PageStats.restores_doc h.stats hfrequency
  refine restores_record [("page", .required), ("stats", .required)] (by decide) (.cons hpage (.cons hstats .nil)) rfl ?_
  simp [PageEntry.reread, hpage', hstats']

/-- A size of at most `2 ^ 53` bytes is restored where its amount is read as it is. -/
theorem ByteSize.restores_doc {size : ByteSize} (h : size.bytes.natAbs ≤ 2 ^ 53) (hread : reread? size.amount = some size.amount) :
    size.doc.Restores ByteSize.ofJson? size := by
  obtain ⟨amount, hamount, hamount'⟩ := restores_float hread
  refine restores_record ByteSize.storedFields (by decide) (.cons hamount (.cons (.text size.unit.name) .nil)) rfl ?_
  simp [hamount', Json.member?, ByteSize.ofAmount_amount size h]

/-- A usage that is stored is restored. -/
theorem Usage.restores_doc {usage : Usage} (hbytes : usage.used.bytes.natAbs ≤ 2 ^ 53)
    (hread : reread? usage.used.amount = some usage.used.amount) (htiles : Word usage.tiles) :
    usage.doc.Restores Usage.ofJson? usage := by
  have hmax : maxInt64 ≤ maxUInt64 := by decide
  obtain ⟨used, hused, hused'⟩ := ByteSize.restores_doc hbytes hread
  obtain ⟨tiles, htiles, htiles'⟩ := restores_int htiles.1 (htiles.2.trans hmax) htiles
  refine restores_record [("used", .required), ("tiles", .required)] (by decide) (.cons hused (.cons htiles .nil)) rfl ?_
  simp [hused', htiles']

/-! ## Ledgers -/

namespace Ledger

variable {ledger : Ledger}

/-- What has to hold of the texts of a ledger's numbers: that of a finite frequency is read as some number, and that of an amount
as the amount itself. A text is scaled by powers of ten as it is read, and may miss its number by the last digit. -/
structure Legible (ledger : Ledger) : Prop where
  frequency : ∀ {key : PageKey} {entry : PageEntry}, ledger.pages[key]? = some entry → entry.stats.frequency.isFinite = true →
    ∃ frequency, reread? entry.stats.frequency = some frequency
  amount : ∀ {id : String} {usage : Usage}, ledger.usage[id]? = some usage →
    reread? usage.used.amount = some usage.used.amount

instance (ledger : Ledger) : Decidable ledger.Legible :=
  decidable_of_iff
    ((∀ item ∈ ledger.pages.toList, item.2.stats.frequency.isFinite = true → (reread? item.2.stats.frequency).isSome = true) ∧
      ∀ item ∈ ledger.usage.toList, reread? item.2.used.amount = some item.2.used.amount)
    ⟨fun ⟨hpages, husage⟩ =>
      ⟨fun {key entry} hentry hfinite => Option.isSome_iff_exists.mp (hpages (key, entry) (Table.mem_toList.mpr hentry) hfinite),
        fun {id usage} hitem => husage (id, usage) (Table.mem_toList.mpr hitem)⟩,
    fun h => ⟨fun _ hitem hfinite => Option.isSome_iff_exists.mpr (h.frequency (Table.mem_toList.mp hitem) hfinite),
      fun _ hitem => h.amount (Table.mem_toList.mp hitem)⟩⟩

/-- What a ledger uses is small enough to be stored: counts of at most `2 ^ 53` bytes, and of tiles that fit a word. -/
structure Modest (ledger : Ledger) : Prop where
  bytes : ∀ {id : String} {usage : Usage}, ledger.usage[id]? = some usage → usage.used.bytes.natAbs ≤ 2 ^ 53
  tiles : ∀ {id : String} {usage : Usage}, ledger.usage[id]? = some usage → usage.tiles ≤ maxInt64

instance (ledger : Ledger) : Decidable ledger.Modest :=
  decidable_of_iff (∀ item ∈ ledger.usage.toList, item.2.used.bytes.natAbs ≤ 2 ^ 53 ∧ item.2.tiles ≤ maxInt64)
    ⟨fun h => ⟨fun {id usage} hitem => (h (id, usage) (Table.mem_toList.mpr hitem)).1,
        fun {id usage} hitem => (h (id, usage) (Table.mem_toList.mpr hitem)).2⟩,
      fun h _ hitem => ⟨h.bytes (Table.mem_toList.mp hitem), h.tiles (Table.mem_toList.mp hitem)⟩⟩

/-- The ledger with the frequencies that are read from their texts. -/
def reread (ledger : Ledger) : Ledger := { ledger with pages := ledger.pages.map fun _ entry => entry.reread }

/-- The tables of a ledger are made again from the lists of their entries. -/
theorem Storable.ofEntries_reread (h : ledger.Storable) :
    ofEntries ledger.allTileSets (ledger.pages.values.map PageEntry.reread) ledger.usage.toList = ledger.reread := by
  have hsets : Std.ExtTreeMap.ofList (ledger.allTileSets.map fun set => (set.id, set)) = ledger.tileSets :=
    Table.ofList_values TileSet.id fun _ _ => h.set_of
  have hpages : Std.ExtTreeMap.ofList ((ledger.pages.values.map PageEntry.reread).map fun entry => (entry.page.key, entry)) =
      ledger.pages.map fun _ entry => entry.reread := by
    rw [← Table.values_map]
    refine Table.ofList_values (fun entry : PageEntry => entry.page.key) fun key entry hentry => ?_
    rw [Std.ExtTreeMap.getElem?_map] at hentry
    obtain ⟨entry, hold, rfl⟩ := Option.map_eq_some_iff.mp hentry
    exact (h.page_of hold).1
  rw [ofEntries, hsets, hpages, Table.ofList_toList]
  rfl

/-- A ledger is restored but for the frequencies, which are read from their texts. -/
theorem Storable.restores_doc (h : ledger.Storable) (hmodest : ledger.Modest) (hlegible : ledger.Legible) :
    ledger.doc.Restores ofJson? ledger.reread := by
  have hentries : ∀ entry ∈ ledger.pages.values, entry.doc.Restores PageEntry.ofJson? entry.reread := by
    intro entry hentry
    obtain ⟨key, hentry⟩ := Table.mem_values.mp hentry
    obtain ⟨-, hstorable⟩ := h.page_of hentry
    obtain ⟨frequency, hfrequency⟩ := hlegible.frequency hentry hstorable.stats.frequency
    exact PageEntry.restores_doc hstorable hfrequency
  have hrecords : ∀ item ∈ ledger.usage.toList, item.2.doc.Restores Usage.ofJson? (id item.2) := by
    intro item hitem
    have hitem := Table.mem_toList.mp hitem
    exact Usage.restores_doc (hmodest.bytes hitem) (hlegible.amount hitem) ⟨h.tiles_of hitem, hmodest.tiles hitem⟩
  obtain ⟨sets, hsets, hsets'⟩ := restores_array ledger.allTileSets fun set _ => TileSet.restores_doc set
  obtain ⟨pages, hpages, hpages'⟩ := restores_array ledger.pages.values hentries
  obtain ⟨usage, husage, husage'⟩ := restores_fields ledger.usage.toList hrecords
  refine restores_record [("tileSets", .required), ("pages", .required), ("usage", .required)] (by decide)
    (.cons hsets (.cons hpages (.cons husage .nil))) rfl ?_
  simp only [List.map_cons, List.map_nil, hsets', hpages', Option.bind_eq_bind, Option.bind_some]
  rw [← Option.bind_assoc]
  refine (congrArg (Option.bind · _) husage').trans ?_
  simp only [Option.bind_some, id, List.map_id', h.ofEntries_reread]
  rfl

/-! ## Queries -/

/-- A ledger that holds what another one holds, with the frequencies that are read from their texts, and answers every query as
the other one does. -/
structure Restored (ledger loaded : Ledger) : Prop where
  tileSets : loaded.tileSets = ledger.tileSets
  usage : loaded.usage = ledger.usage
  pages : ∀ key : PageKey, loaded.pages[key]? = ledger.pages[key]?.map PageEntry.reread
  frequency : ∀ {key : PageKey} {entry : PageEntry}, ledger.pages[key]? = some entry →
    reread? entry.stats.frequency = some entry.reread.stats.frequency
  statsOf : ∀ key, loaded.statsOf key = (ledger.statsOf key).map PageStats.reread
  pagesOf : ∀ id, loaded.pagesOf id = (ledger.pagesOf id).map PageEntry.reread
  pagesOfLayer : ∀ layer, loaded.pagesOfLayer layer = (ledger.pagesOfLayer layer).map PageEntry.reread
  pageCount : loaded.pageCount = ledger.pageCount
  tileSetsOf : ∀ layer, loaded.tileSetsOf layer = ledger.tileSetsOf layer
  layerNames : loaded.layerNames = ledger.layerNames
  usageOf : ∀ id, loaded.usageOf id = ledger.usageOf id
  usedByLayer : ∀ layer, loaded.usedByLayer layer = ledger.usedByLayer layer
  usedInAll : loaded.usedInAll = ledger.usedInAll

/-- The pages of a tile set are a run of keys, whatever their frequencies. -/
theorem pagesOf_reread (ledger : Ledger) (id : String) : ledger.reread.pagesOf id = (ledger.pagesOf id).map PageEntry.reread := by
  simp only [Ledger.pagesOf, reread, Std.ExtTreeMap.toList_map, List.dropWhile_map, List.takeWhile_map, List.map_map]
  rfl

/-- A ledger that can be stored is restored as it is read again. -/
theorem Storable.restored_reread (h : ledger.Storable) (hlegible : ledger.Legible) : ledger.Restored ledger.reread where
  tileSets := rfl
  usage := rfl
  pages key := Std.ExtTreeMap.getElem?_map
  frequency {key entry} hentry := by
    obtain ⟨frequency, hfrequency⟩ := hlegible.frequency hentry (h.page_of hentry).2.stats.frequency
    rw [hfrequency]
    simp [PageEntry.reread, PageStats.reread, hfrequency]
  statsOf key := by
    simp only [statsOf, reread, Std.ExtTreeMap.getElem?_map, Option.map_map]
    rfl
  pagesOf := pagesOf_reread ledger
  pagesOfLayer layer := by
    simp only [Ledger.pagesOfLayer, pagesOf_reread, List.map_flatMap]
    rfl
  pageCount := Std.ExtTreeMap.size_map
  tileSetsOf _ := rfl
  layerNames := rfl
  usageOf _ := rfl
  usedByLayer _ := rfl
  usedInAll := rfl

/-- A ledger that was empty or was loaded, and has served calls whose numbers fit, is loaded from its snapshot as it is: with the
same tile sets, the same pages and the same usage, where only the frequencies of use are rounded to what their texts say. -/
theorem snapshot_restores {start : Ledger} (hstart : start = empty ∨ ∃ text, ofSnapshot text = .ok start)
    {calls : List LedgerCall} (hcalls : ∀ call ∈ calls, call.Fits) (hmodest : (start.serve calls).Modest)
    (hlegible : (start.serve calls).Legible) :
    ∃ loaded, ofSnapshot (start.serve calls).snapshot = .ok loaded ∧ (start.serve calls).Restored loaded := by
  have hstorable : (start.serve calls).Storable := by
    rcases hstart with rfl | ⟨text, htext⟩
    · exact storable_empty.serve hcalls
    · exact (storable_of_ofSnapshot htext).serve hcalls
  exact ⟨_, (hstorable.restores_doc hmodest hlegible).decode, hstorable.restored_reread hlegible⟩

/-- Roads with tiles and hits on a page, and streets that became lanes after they were used. -/
theorem snapshot_restores_roads :
    let roads := TileSet.of "roads" "grid" "png" none
    let streets := TileSet.of "streets" "grid" "png" none
    let served := empty.serve [.addTiles roads ⟨roads.id, 1, 2, 3, 900⟩ rfl 3 16 1536 1000,
      .addHits roads ⟨roads.id, 1, 2, 3, 900⟩ rfl 5 1003, .addTiles streets ⟨streets.id, 0, 0, 1, 1001⟩ rfl 1 16 1700 1001,
      .renameLayer "streets" "lanes"]
    served.layerNames = ["lanes", "roads"] ∧ served.pageCount = 2 ∧ served.usedInAll.bytes = 3236 ∧
      served.Modest ∧ served.Legible ∧ ∃ loaded, ofSnapshot served.snapshot = .ok loaded ∧ served.Restored loaded := by
  intro roads streets served
  have hmodest : served.Modest := by decide +kernel
  have hlegible : served.Legible := by decide +kernel
  exact ⟨by decide +kernel, by decide +kernel, by decide +kernel, hmodest, hlegible,
    snapshot_restores (Or.inl rfl) (by decide +kernel) hmodest hlegible⟩

end Ledger

end TileDepot
