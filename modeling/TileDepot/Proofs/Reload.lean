import TileDepot.Proofs.Snapshot

/-!
# Ledgers with plain names

A ledger has plain names if it was made by calls with plain names, or loaded from the snapshot of such a ledger. Whatever becomes
of the numbers in a snapshot, what is loaded from it has the same tile sets, the same pages, and usage of the same tile sets.
-/

namespace TileDepot

open Json

/-! ## What a document can be read back as -/

/-- A document that is read back, if at all, as something that has a property. -/
def Json.Doc.Recalls {α : Type} (doc : Doc) (read : Json → Option α) (P : α → Prop) : Prop :=
  ∃ value : Json, doc.Means value ∧ ∀ a, read value = some a → P a

namespace Json.Doc

variable {α β : Type} {doc : Doc} {read : Json → Option α}

/-- What is decoded from the text of such a document has the property. -/
theorem Recalls.decode {P : α → Prop} (h : doc.Recalls read P) {a : α} (hdecode : Json.decode read (doc.pretty 0) = .ok a) :
    P a := by
  obtain ⟨value, hmeans, hP⟩ := h
  rw [Json.decode, hmeans.read?, show some value >>= read = read value from rfl] at hdecode
  split at hdecode
  · rename_i hread
    obtain rfl := Except.ok.inj hdecode
    exact hP _ hread
  · cases hdecode

/-- A whole number is read back as itself or not at all. -/
theorem recalls_int (n low high : Int) : (Doc.int n).Recalls (Json.int? low high) (· = n) := by
  refine ⟨_, .number (Literal.proper_ofInt n) (Literal.chars_ofInt n), fun m hm => ?_⟩
  unfold Json.int? at hm
  obtain ⟨k, hk, hm⟩ := Option.bind_eq_some_iff.mp hm
  split at hm
  · obtain rfl := Option.some.inj hm
    simp only [Literal.toInt?, Literal.ofInt, Literal.ofDigits_toDigits, Option.isSome_none, Bool.or_self, Bool.false_eq_true,
      if_false, decide_eq_true_eq] at hk
    split at hk
    · split at hk
      · cases hk
      · have := Option.some.inj hk
        omega
    · split at hk
      · have := Option.some.inj hk
        omega
      · cases hk
  · cases hm

/-- A record is read back from its fields. -/
theorem recalls_record (fields : List (String × Presence)) (hnames : (fields.map Prod.fst).Nodup) {docs : List Doc}
    {values : List Json} (h : List.Forall₂ Means docs values) (hlength : fields.length = values.length)
    {read : List (Option Json) → Option α} {P : α → Prop} (hP : ∀ a, read (values.map some) = some a → P a) :
    (Doc.object ((fields.map Prod.fst).zip docs)).Recalls (fun value => value.record? fields >>= read) P := by
  -- read as the list of what its fields hold, the record is restored
  have hfound : (pure : List (Option Json) → Option (List (Option Json))) (values.map some) = some (values.map some) := rfl
  obtain ⟨value, hmeans, hrecord⟩ := restores_record fields hnames h hlength hfound
  refine ⟨value, hmeans, fun a ha => hP a ?_⟩
  simp only [bind_pure] at hrecord
  simpa only [hrecord, Option.bind_eq_bind, Option.bind_some] using ha

/-- What is read back of a list is read back of its items. -/
theorem recalls_array {write : β → Doc} {R : β → α → Prop} (items : List β)
    (h : ∀ item ∈ items, (write item).Recalls read (R item)) :
    (Doc.array (items.map write)).Recalls (Json.list? read) fun found => ∀ a ∈ found, ∃ item ∈ items, R item a := by
  obtain ⟨values, rfl, hvalues⟩ := exists_values items h
  refine ⟨_, means_array values fun value hvalue => (hvalues value hvalue).1, fun found hfound a ha => ?_⟩
  obtain ⟨item, hitem, hread⟩ := exists_of_mapM hfound ha
  obtain ⟨value, hvalue, rfl⟩ := List.mem_map.mp hitem
  exact ⟨value.1, List.mem_map_of_mem hvalue, (hvalues value hvalue).2 a hread⟩

/-- A table of named values is read back under names that it has. -/
theorem recalls_fields {write : β → Doc} (read : Json → Option α) (items : List (String × β))
    (h : ∀ item ∈ items, ∃ value, (write item.2).Means value) :
    (Doc.object (items.map fun (name, item) => (name, write item))).Recalls
      (fun value => do (← value.fields?).mapM fun (name, item) => (read item).map (name, ·))
      fun found => ∀ field ∈ found, field.1 ∈ items.map Prod.fst := by
  obtain ⟨values, rfl, hvalues⟩ := exists_values items h
  refine ⟨_, means_fields values hvalues, fun found hfound field hfield => ?_⟩
  simp only [fields?_object, Option.bind_eq_bind, Option.bind_some] at hfound
  obtain ⟨record, hrecord, hread⟩ := exists_of_mapM hfound hfield
  obtain ⟨value, hvalue, rfl⟩ := List.mem_map.mp hrecord
  obtain ⟨item, -, rfl⟩ := Option.map_eq_some_iff.mp hread
  exact List.mem_map_of_mem (List.mem_map_of_mem hvalue)

end Json.Doc

open Doc

/-! ## Entries of a ledger -/

/-- A page is read back as itself or not at all. -/
theorem Page.recalls_doc (page : Page) : page.doc.Recalls Page.ofJson? (· = page) := by
  obtain ⟨tileSet, htileSet, htileSet'⟩ := restores_text page.tileSet
  obtain ⟨column, hcolumn, hcolumn'⟩ := recalls_int page.column 0 Binary64.maxUInt32
  obtain ⟨row, hrow, hrow'⟩ := recalls_int page.row 0 Binary64.maxUInt32
  obtain ⟨zoom, hzoom, hzoom'⟩ := recalls_int page.zoom 0 Binary64.maxUInt32
  obtain ⟨created, hcreated, hcreated'⟩ := recalls_int page.created Binary64.minInt64 Binary64.maxInt64
  have hword : ∀ {value : Json} {n : Nat}, (∀ m : Int, value.int? 0 Binary64.maxUInt32 = some m → m = n) →
      ∀ m : Nat, Page.word? value = some m → m = n := by
    intro value n hvalue m hm
    obtain ⟨k, hk, rfl⟩ := Option.map_eq_some_iff.mp hm
    rw [hvalue k hk, Int.toNat_natCast]
  refine recalls_record Page.storedFields (by decide) (.cons htileSet (.cons hcolumn (.cons hrow (.cons hzoom
    (.cons hcreated .nil))))) rfl fun found hfound => ?_
  simp only [List.map_cons, List.map_nil, htileSet', Option.bind_eq_bind, Option.bind_some] at hfound
  obtain ⟨column, hc, hfound⟩ := Option.bind_eq_some_iff.mp hfound
  obtain ⟨row, hr, hfound⟩ := Option.bind_eq_some_iff.mp hfound
  obtain ⟨zoom, hz, hfound⟩ := Option.bind_eq_some_iff.mp hfound
  obtain ⟨created, ht, hfound⟩ := Option.bind_eq_some_iff.mp hfound
  obtain rfl := Option.some.inj hfound
  rw [hword hcolumn' _ hc, hword hrow' _ hr, hword hzoom' _ hz, hcreated' _ ht]

/-- The statistics of a page are written as something that can be read. -/
theorem PageStats.exists_means (stats : PageStats) : ∃ value, stats.doc.Means value := by
  obtain ⟨fill, hfill, -⟩ := recalls_int stats.fill 0 0
  obtain ⟨frequency, hfrequency⟩ := means_float stats.frequency
  obtain ⟨lastAccess, hlastAccess, -⟩ := recalls_int stats.lastAccess 0 0
  obtain ⟨hits, hhits, -⟩ := recalls_int stats.hits 0 0
  exact ⟨_, means_record (.cons hfill (.cons hfrequency (.cons hlastAccess (.cons hhits .nil))))
    (PageStats.storedFields.map Prod.fst)⟩

/-- An entry is read back with its page. -/
theorem PageEntry.recalls_doc (entry : PageEntry) : entry.doc.Recalls PageEntry.ofJson? (·.page = entry.page) := by
  obtain ⟨page, hpage, hpage'⟩ := Page.recalls_doc entry.page
  obtain ⟨stats, hstats⟩ := PageStats.exists_means entry.stats
  refine recalls_record [("page", .required), ("stats", .required)] (by decide) (.cons hpage (.cons hstats .nil)) rfl
    fun found hfound => ?_
  obtain ⟨page, hread, hfound⟩ := Option.bind_eq_some_iff.mp hfound
  obtain ⟨stats, -, hfound⟩ := Option.bind_eq_some_iff.mp hfound
  obtain rfl := Option.some.inj hfound
  exact hpage' page hread

/-- A usage is written as something that can be read. -/
theorem Usage.exists_means (usage : Usage) : ∃ value, usage.doc.Means value := by
  obtain ⟨amount, hamount⟩ := means_float usage.used.amount
  obtain ⟨tiles, htiles, -⟩ := recalls_int usage.tiles 0 0
  have hused : usage.used.doc.Means _ :=
    means_record (.cons hamount (.cons (.text usage.used.unit.name) .nil)) (ByteSize.storedFields.map Prod.fst)
  exact ⟨_, means_record (.cons hused (.cons htiles .nil)) ["used", "tiles"]⟩

namespace Ledger

variable {ledger loaded : Ledger}

/-- What is loaded is made of the same tile sets, of entries whose pages are the same, and of usage under the same identifiers. -/
theorem recalls_doc (ledger : Ledger) : ledger.doc.Recalls ofJson? fun loaded =>
    ∃ (pages : List PageEntry) (usage : List (String × Usage)), loaded = ofEntries ledger.allTileSets pages usage ∧
      (∀ entry ∈ pages, ∃ old ∈ ledger.pages.values, entry.page = old.page) ∧
      ∀ item ∈ usage, item.1 ∈ ledger.usage.toList.map Prod.fst := by
  obtain ⟨sets, hsets, hsets'⟩ := restores_array ledger.allTileSets fun set _ => TileSet.restores_doc set
  obtain ⟨pages, hpages, hpages'⟩ := recalls_array ledger.pages.values fun entry _ => PageEntry.recalls_doc entry
  obtain ⟨usage, husage, husage'⟩ := recalls_fields Usage.ofJson? ledger.usage.toList fun item _ =>
    Usage.exists_means item.2
  refine recalls_record [("tileSets", .required), ("pages", .required), ("usage", .required)] (by decide)
    (.cons hsets (.cons hpages (.cons husage .nil))) rfl fun loaded hloaded => ?_
  simp only [List.map_cons, List.map_nil, hsets', Option.bind_eq_bind, Option.bind_some] at hloaded
  obtain ⟨entries, hentries, hloaded⟩ := Option.bind_eq_some_iff.mp hloaded
  obtain ⟨fields, hfields, hloaded⟩ := Option.bind_eq_some_iff.mp hloaded
  obtain ⟨records, hrecords, hloaded⟩ := Option.bind_eq_some_iff.mp hloaded
  obtain rfl := Option.some.inj hloaded
  refine ⟨entries, records, by rw [List.map_id'], hpages' entries hentries, husage' records ?_⟩
  simp only [hfields, Option.bind_eq_bind, Option.bind_some]
  exact hrecords

/-- A sound ledger is loaded from its snapshot as a sound one. -/
theorem Sound.reloaded (h : ledger.Sound) (hload : ofSnapshot ledger.snapshot = .ok loaded) : loaded.Sound := by
  obtain ⟨pages, usage, rfl, hpages, husage⟩ := (recalls_doc ledger).decode hload
  have hsets : (ofEntries ledger.allTileSets pages usage).tileSets = ledger.tileSets :=
    Table.ofList_values TileSet.id fun _ _ hset => (h.set_of hset).1
  refine ⟨fun hset => h.set_of (hsets ▸ hset), fun {id used} hused => ?_, fun {key entry} hentry => ?_⟩
  · obtain ⟨item, hitem, rfl⟩ := List.mem_map.mp (husage _ (Table.mem_of_getElem?_ofList hused))
    rw [hsets]
    exact h.usage_of (Table.mem_toList.mp hitem)
  · obtain ⟨found, hfound, heq⟩ := List.mem_map.mp (Table.mem_of_getElem?_ofList hentry)
    obtain ⟨rfl, rfl⟩ := Prod.mk.inj heq
    obtain ⟨old, hold, hpage⟩ := hpages found hfound
    obtain ⟨key, hkey⟩ := Table.mem_values.mp hold
    obtain ⟨hsame, hset⟩ := h.page_of hkey
    rw [hsets, hpage, hsame]
    exact ⟨rfl, hset⟩

end Ledger

/-! ## Plain ledgers -/

/-- A call with plain names: the tile sets that it records something for, and the layer that it names another one after. -/
def LedgerCall.Plain : LedgerCall → Prop
  | .register set | .addHits set .. | .addTiles set .. | .setTruncated set .. => set.Plain
  | .renameLayer _ target => PlainName target
  | .deleteLayer _ | .deleteGridset _ _ | .deleteParameters _ _ => True

namespace Ledger

variable {ledger : Ledger}

/-- A ledger that was made by calls with plain names, some of them on a ledger that had been stored and loaded. -/
inductive Plain : Ledger → Prop where
  | empty : Plain .empty
  | perform {ledger : Ledger} {call : LedgerCall} (h : Plain ledger) (hcall : call.Plain) : Plain (ledger.perform call)
  | reload {ledger loaded : Ledger} (h : Plain ledger) (hload : ofSnapshot ledger.snapshot = .ok loaded) : Plain loaded

/-- A layer renamed to a plain name, be it its own one. -/
theorem Sound.renameLayer (h : ledger.Sound) (layer : String) {target : String} (ht : PlainName target) :
    (ledger.renameLayer layer target).Sound := by
  by_cases hne : layer = target
  · rw [hne, renameLayer_self h]
    exact h
  · exact sound_renameLayer h ht hne

/-- A sound ledger is sound after a call with plain names. -/
theorem Sound.perform (h : ledger.Sound) {call : LedgerCall} (hcall : call.Plain) : (ledger.perform call).Sound := by
  cases call with
  | register set =>
    refine (h.keyed.register set).sound fun hset => ?_
    rcases register_cases hset with ⟨-, rfl⟩ | hold
    · exact hcall
    · exact (h.set_of hold).2
  | addHits set page hpage hits now => exact h.addHits hcall hpage hits now
  | addTiles set page hpage tiles slots bytes now => exact h.addTilesBy _ hcall hpage tiles slots bytes now
  | setTruncated set page hpage now => exact h.setTruncated hcall hpage now
  | deleteLayer layer => exact sound_drop h _
  | deleteGridset layer gridset => exact sound_drop h _
  | deleteParameters layer parameters => exact sound_drop h _
  | renameLayer layer target => exact h.renameLayer layer hcall

/-- Names stay plain with any calls that have plain names. -/
theorem Plain.serve (h : ledger.Plain) {calls : List LedgerCall} (hcalls : ∀ call ∈ calls, call.Plain) :
    (ledger.serve calls).Plain :=
  List.foldlRecOn (motive := Plain) calls Ledger.perform h fun _ hbefore call hcall => hbefore.perform (hcalls call hcall)

/-- A ledger with plain names is sound. -/
theorem Plain.sound (h : ledger.Plain) : ledger.Sound := by
  induction h with
  | empty => exact sound_empty
  | perform _ hcall ih => exact ih.perform hcall
  | reload _ hload ih => exact ih.reloaded hload

end Ledger

end TileDepot
