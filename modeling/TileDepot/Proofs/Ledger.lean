import TileDepot.Proofs.Coverage
import TileDepot.Proofs.Fill
import TileDepot.Proofs.Holdings

/-!
# Totals and changes of a ledger

What layers use is added up from the usage of their tile sets, and in a keyed ledger that is all the usage there is. Every
change of a ledger but a renaming is known by its look-ups, and leaves a keyed ledger keyed and a sound one sound.
-/

namespace TileDepot

namespace Usage

/-- What is used is cut off at zero, and stated in the unit that fits it. -/
theorem ofTotals_eq (bytes tiles : Int) : ofTotals bytes tiles = ⟨.ofBytes (max bytes 0), max tiles 0⟩ := by
  unfold ofTotals
  split
  · rename_i hbelow
    rw [Int.max_eq_right (Int.le_of_lt hbelow), ByteSize.ofBytes_zero]
  · rename_i hkept
    rw [Int.max_eq_left (Int.not_lt.mp hkept)]

/-- What is used after a record is what was used and what was added, and not below zero. -/
theorem used_record (usage : Usage) (tiles bytes : Int) :
    (usage.record tiles bytes).used = .ofBytes (max (usage.used.bytes + bytes) 0) := by
  rw [record, ofTotals_eq]

/-- Sums that fit in words are recorded as they are. -/
theorem recordInWords_of_fits {usage : Usage} {tiles bytes : Int} (hbytes : Word.Fits 128 (usage.used.bytes + bytes))
    (htiles : Word.Fits 64 (usage.tiles + tiles)) : usage.recordInWords tiles bytes = usage.record tiles bytes := by
  rw [recordInWords, record, Word.wrap_of_fits hbytes, Word.wrap_of_fits htiles]

end Usage

namespace Ledger

variable {ledger : Ledger} {set : TileSet} {page : Page} {now : Int}

/-! ## Totals -/

/-- A total has the unit that fits the sum. -/
theorem total_eq (sizes : List ByteSize) : total sizes = .ofBytes (sizes.map ByteSize.bytes).sum := by
  have hfold : ∀ (sizes : List ByteSize) (start : Int),
      sizes.foldl ByteSize.add (.ofBytes start) = .ofBytes (start + (sizes.map ByteSize.bytes).sum) := by
    intro sizes
    induction sizes with
    | nil => intro start; simp
    | cons size sizes ih =>
      intro start
      rw [List.foldl_cons, List.map_cons, List.sum_cons, ← Int.add_assoc]
      exact ih (start + size.bytes)
  rw [total, ← ByteSize.ofBytes_zero, hfold, Int.zero_add]

/-- The bytes of a total are the sum of the bytes. -/
theorem bytes_total (sizes : List ByteSize) : (total sizes).bytes = (sizes.map ByteSize.bytes).sum := by
  rw [total_eq, ByteSize.bytes_ofBytes]

/-- What a layer uses is what its tile sets use; a tile set without an entry uses nothing. -/
theorem bytes_usedByLayer (ledger : Ledger) (layer : String) :
    (ledger.usedByLayer layer).bytes = ((ledger.tileSetsOf layer).map fun set => (ledger.usageOf set.id).used.bytes).sum := by
  rw [usedByLayer, bytes_total]
  induction ledger.tileSetsOf layer with
  | nil => rfl
  | cons set sets ih =>
    rw [List.map_cons, List.sum_cons, ← ih, usageOf, Std.ExtTreeMap.getD_eq_getD_getElem?]
    cases husage : ledger.usage[set.id]? with
    | none => simp [husage, Usage.none]
    | some usage => simp [husage]

/-- The layer of the tile set registered under an identifier. -/
def layerOf? (ledger : Ledger) (id : String) : Option String := ledger.tileSets[id]?.map TileSet.layer

/-- What a layer uses is the usage whose tile sets are in it. -/
theorem Keyed.bytes_usedByLayer (h : ledger.Keyed) (layer : String) :
    (ledger.usedByLayer layer).bytes =
      Table.weigh ledger.usage fun id usage => if ledger.layerOf? id = some layer then usage.used.bytes else 0 := by
  have hids : ∀ id, id ∈ (ledger.tileSetsOf layer).map TileSet.id ↔ ledger.layerOf? id = some layer := by
    intro id
    rw [List.mem_map, layerOf?, Option.map_eq_some_iff]
    constructor
    · rintro ⟨set, hset, rfl⟩
      exact ⟨set, h.mem_tileSetsOf.mp hset⟩
    · rintro ⟨set, hset, hlayer⟩
      obtain rfl := h.set_of hset
      exact ⟨set, h.mem_tileSetsOf.mpr ⟨hset, hlayer⟩, rfl⟩
  have hused : ∀ id, (ledger.usageOf id).used.bytes =
      Table.weigh ledger.usage fun id' usage => if id' = id then usage.used.bytes else 0 := by
    intro id
    rw [Table.weigh_single, usageOf, Std.ExtTreeMap.getD_eq_getD_getElem?]
    cases ledger.usage[id]? <;> rfl
  have hsum := Table.sum_weigh_of_kind ledger.usage (fun id _ => id) (fun _ usage => usage.used.bytes) _ (h.nodup_idsOf layer)
  simp only [hids, List.map_map] at hsum
  rw [Ledger.bytes_usedByLayer, ← hsum]
  exact congrArg List.sum (List.map_congr_left fun set _ => hused set.id)

/-- The layers in use are those of the registered tile sets. -/
theorem mem_layerNames (ledger : Ledger) (layer : String) :
    layer ∈ ledger.layerNames ↔ ∃ set ∈ ledger.allTileSets, set.layer = layer := by
  simp [layerNames]

/-- All that is used is used by some layer, and by one only. -/
theorem Keyed.total_usedByLayer (h : ledger.Keyed) : total (ledger.layerNames.map ledger.usedByLayer) = ledger.usedInAll := by
  have hlayers : ∀ id usage, ledger.usage[id]? = some usage → ledger.layerOf? id ∈ ledger.layerNames.map some := by
    intro id usage husage
    obtain ⟨set, hset⟩ := h.usage_of husage
    have hname : set.layer ∈ ledger.layerNames := (mem_layerNames ledger _).mpr ⟨set, Table.mem_values.mpr ⟨id, hset⟩, rfl⟩
    rw [layerOf?, hset]
    exact List.mem_map_of_mem hname
  have hnodup : (ledger.layerNames.map some).Nodup :=
    Std.ExtTreeMap.nodup_keys.map (Option.some_injective String)
  have hsum := Table.sum_weigh_of_kind ledger.usage (fun id _ => ledger.layerOf? id) (fun _ usage => usage.used.bytes) _ hnodup
  have hall : (ledger.usage.values.map (·.used.bytes)).sum = Table.weigh ledger.usage fun _ usage => usage.used.bytes := by
    rw [Table.values_eq, List.map_map]
    rfl
  replace hsum := hsum.trans (Table.weigh_congr fun id usage husage => if_pos (hlayers id usage husage))
  rw [List.map_map] at hsum
  rw [usedInAll, total_eq, total_eq, List.map_map, List.map_map]
  refine congrArg ByteSize.ofBytes (Eq.trans ?_ (hsum.trans hall.symm))
  exact congrArg List.sum (List.map_congr_left fun layer _ => h.bytes_usedByLayer layer)

/-! ## Registration -/

/-- A tile set is registered unless there is one of its identifier already. -/
theorem getElem?_register (ledger : Ledger) (set : TileSet) (id : String) :
    (ledger.register set).tileSets[id]? =
      if set.id = id ∧ set.id ∉ ledger.tileSets then some set else ledger.tileSets[id]? := by
  rw [register, Std.ExtTreeMap.getElem?_insertIfNew]
  simp only [Std.LawfulEqCmp.compare_eq_iff_eq]

/-- A tile set that is found after a registration is the one registered, or was found before. -/
theorem register_cases {id : String} {set' : TileSet} (h : (ledger.register set).tileSets[id]? = some set') :
    set.id = id ∧ set' = set ∨ ledger.tileSets[id]? = some set' := by
  rw [getElem?_register] at h
  split at h
  · rename_i hnew
    exact Or.inl ⟨hnew.1, (Option.some.inj h).symm⟩
  · exact Or.inr h

/-- What was registered before still is. -/
theorem register_of_some {id : String} {set' : TileSet} (h : ledger.tileSets[id]? = some set') :
    (ledger.register set).tileSets[id]? = some set' := by
  rw [getElem?_register, if_neg, h]
  rintro ⟨rfl, hnew⟩
  exact hnew (Table.mem_iff_exists.mpr ⟨set', h⟩)

/-- After a registration there is a tile set under the identifier. -/
theorem exists_register (ledger : Ledger) (set : TileSet) : ∃ set', (ledger.register set).tileSets[set.id]? = some set' := by
  rw [getElem?_register]
  split
  · exact ⟨set, rfl⟩
  · rename_i hold
    exact Table.mem_iff_exists.mp (Decidable.not_not.mp fun hnew => hold ⟨rfl, hnew⟩)

/-- Everything is under its own key after a tile set was registered. -/
theorem Keyed.register (h : ledger.Keyed) (set : TileSet) : (ledger.register set).Keyed := by
  refine ⟨fun {id set'} hset' => ?_, fun husage => ?_, fun hentry => ⟨(h.page_of hentry).1, ?_⟩⟩
  · rcases register_cases hset' with ⟨hid, rfl⟩ | hold
    · exact hid
    · exact h.set_of hold
  · obtain ⟨set', hset'⟩ := h.usage_of husage
    exact ⟨set', register_of_some hset'⟩
  · obtain ⟨set', hset'⟩ := (h.page_of hentry).2
    exact ⟨set', register_of_some hset'⟩

/-- A tile set that is registered already changes nothing. -/
theorem register_of_registered (hset : ledger.tileSets[set.id]? = some set) : ledger.register set = ledger := by
  have htable : ledger.tileSets.insertIfNew set.id set = ledger.tileSets := by
    refine Std.ExtTreeMap.ext_getElem? fun id => ?_
    rw [Std.ExtTreeMap.getElem?_insertIfNew, if_neg]
    rintro ⟨-, hnew⟩
    exact hnew (Table.mem_iff_exists.mpr ⟨set, hset⟩)
  rw [register, htable]

/-! ## Statistics changed -/

/-- The entry of a page is of that page. -/
theorem key_entry (h : ledger.Keyed) (page : Page) (now : Int) : (ledger.entry page now).page.key = page.key := by
  rw [entry, Std.ExtTreeMap.getD_eq_getD_getElem?]
  cases hpage : ledger.pages[page.key]? with
  | none => rfl
  | some entry => exact (h.page_of hpage).1

/-- Of the pages only the one whose statistics change is another one then. -/
theorem pages_changeStats (ledger : Ledger) (set : TileSet) (page : Page) (now : Int) (change : PageEntry → PageStats)
    (key : PageKey) :
    (ledger.changeStats set page now change).2.pages[key]? =
      if page.key = key then some { ledger.entry page now with stats := change (ledger.entry page now) }
      else ledger.pages[key]? :=
  Table.getElem?_insert _ _ _ _

/-- Everything is under its own key after the statistics of a page have changed. -/
theorem Keyed.changeStats (h : ledger.Keyed) (hpage : page.tileSet = set.id) (now : Int) (change : PageEntry → PageStats) :
    (ledger.changeStats set page now change).2.Keyed := by
  have hregistered := h.register set
  refine ⟨hregistered.set_of, hregistered.usage_of, fun {key entry} hentry => ?_⟩
  rw [pages_changeStats] at hentry
  split at hentry
  · rename_i hkey
    obtain rfl := Option.some.inj hentry
    refine ⟨(key_entry h page now).trans hkey, ?_⟩
    have hid : key.tileSet = set.id := by rw [← hkey, ← hpage]; rfl
    rw [hid]
    exact exists_register ledger set
  · exact hregistered.page_of hentry

/-- A sound ledger is sound after the statistics of a page have changed. -/
theorem Sound.changeStats (h : ledger.Sound) (hplain : set.Plain) (hpage : page.tileSet = set.id) (now : Int)
    (change : PageEntry → PageStats) : (ledger.changeStats set page now change).2.Sound := by
  refine (h.keyed.changeStats hpage now change).sound fun {id set'} hset' => ?_
  rcases register_cases hset' with ⟨-, rfl⟩ | hold
  · exact hplain
  · exact (h.set_of hold).2

/-- A sound ledger is sound after hits were recorded. -/
theorem Sound.addHits (h : ledger.Sound) (hplain : set.Plain) (hpage : page.tileSet = set.id) (hits : Nat) (now : Int) :
    (ledger.addHits set page hits now).2.Sound := h.changeStats hplain hpage now _

/-- A sound ledger is sound after a page was recorded as empty. -/
theorem Sound.setTruncated (h : ledger.Sound) (hplain : set.Plain) (hpage : page.tileSet = set.id) (now : Int) :
    (ledger.setTruncated set page now).Sound := h.changeStats hplain hpage now _

/-! ## Tiles recorded -/

section AddTiles

variable (record : Usage → Int → Int → Usage)

/-- Of the usages only that of the tile set is another one when tiles come or go. -/
theorem usage_addTilesBy (ledger : Ledger) (set : TileSet) (page : Page) (tiles : Int) (slots : Nat) (bytes now : Int)
    (id : String) :
    (ledger.addTilesBy record set page tiles slots bytes now).2.usage[id]? =
      if set.id = id then some (record (ledger.usageOf set.id) tiles bytes) else ledger.usage[id]? :=
  Table.getElem?_insert _ _ _ _

/-- What a tile set uses when tiles have come or gone. -/
theorem usageOf_addTilesBy (ledger : Ledger) (set : TileSet) (page : Page) (tiles : Int) (slots : Nat) (bytes now : Int)
    (id : String) :
    (ledger.addTilesBy record set page tiles slots bytes now).2.usageOf id =
      if set.id = id then record (ledger.usageOf set.id) tiles bytes else ledger.usageOf id := by
  rw [usageOf, Std.ExtTreeMap.getD_eq_getD_getElem?, usage_addTilesBy]
  split
  · rfl
  · rw [usageOf, Std.ExtTreeMap.getD_eq_getD_getElem?]

/-- Of the pages only the one of the tiles is another one then. -/
theorem pages_addTilesBy (ledger : Ledger) (set : TileSet) (page : Page) (tiles : Int) (slots : Nat) (bytes now : Int)
    (key : PageKey) :
    (ledger.addTilesBy record set page tiles slots bytes now).2.pages[key]? =
      if page.key = key then
        some { ledger.entry page now with stats := (ledger.entry page now).stats.addTiles tiles slots }
      else ledger.pages[key]? :=
  Table.getElem?_insert _ _ _ _

/-- Whatever is recorded, and however usage is added up, the tile set it is recorded for is registered then. -/
theorem Keyed.addTilesBy (h : ledger.Keyed) (hpage : page.tileSet = set.id) (tiles : Int) (slots : Nat) (bytes now : Int) :
    (ledger.addTilesBy record set page tiles slots bytes now).2.Keyed := by
  -- apart from the usage of the tile set, which is registered then, only statistics change
  have hstats := h.changeStats hpage now fun entry => entry.stats.addTiles tiles slots
  refine ⟨hstats.set_of, fun {id usage} husage => ?_, hstats.page_of⟩
  rw [usage_addTilesBy] at husage
  split at husage
  · rename_i hid
    subst hid
    exact exists_register ledger set
  · exact hstats.usage_of husage

/-- A sound ledger is sound when tiles come or go. -/
theorem Sound.addTilesBy (h : ledger.Sound) (hplain : set.Plain) (hpage : page.tileSet = set.id) (tiles : Int) (slots : Nat)
    (bytes now : Int) : (ledger.addTilesBy record set page tiles slots bytes now).2.Sound :=
  (h.keyed.addTilesBy record hpage tiles slots bytes now).sound fun hset' =>
    ((h.changeStats hplain hpage now fun entry => entry.stats.addTiles tiles slots).set_of hset').2

end AddTiles

/-! ## Tile sets dropped -/

/-- Whether the tile set registered under an identifier is doomed. -/
def Doomed (ledger : Ledger) (doomed : TileSet → Bool) (id : String) : Prop :=
  ∃ set, ledger.tileSets[id]? = some set ∧ doomed set = true

/-- The identifiers that go are those under which a doomed tile set is registered. -/
theorem contains_goneIds (h : ledger.Keyed) (doomed : TileSet → Bool) (id : String) :
    (Std.ExtTreeMap.ofList ((ledger.tileSets.filter fun _ set => doomed set).values.map fun set => (set.id, ()))).contains
      id = true ↔ ledger.Doomed doomed id := by
  rw [Std.ExtTreeMap.contains_ofList, List.contains_iff_mem, List.map_map, List.mem_map]
  have hmem : ∀ set : TileSet, set ∈ (ledger.tileSets.filter fun _ set => doomed set).values ↔
      ∃ id : String, ledger.tileSets[id]? = some set ∧ doomed set = true := by
    intro set
    rw [Table.mem_values]
    simp only [Std.ExtTreeMap.getElem?_filter', Option.filter_eq_some_iff]
  constructor
  · rintro ⟨set, hset, rfl⟩
    obtain ⟨id, hid, hdoomed⟩ := (hmem set).mp hset
    obtain rfl := h.set_of hid
    exact ⟨set, hid, hdoomed⟩
  · rintro ⟨set, hset, hdoomed⟩
    exact ⟨set, (hmem set).mpr ⟨id, hset, hdoomed⟩, h.set_of hset⟩

section Drop

variable (h : ledger.Keyed) (doomed : TileSet → Bool)

include h

/-- A filter by the identifiers that go: what stands under such an identifier goes, all else stays. -/
theorem getElem?_filter_goneIds {κ β : Type} [Ord κ] [Std.TransOrd κ] [Std.LawfulEqOrd κ] (table : Std.ExtTreeMap κ β)
    (idOf : κ → String) (key : κ) :
    (ledger.Doomed doomed (idOf key) →
      (table.filter fun key _ => !(Std.ExtTreeMap.ofList ((ledger.tileSets.filter fun _ set => doomed set).values.map
        fun set => (set.id, ()))).contains (idOf key))[key]? = none) ∧
    (¬ledger.Doomed doomed (idOf key) →
      (table.filter fun key _ => !(Std.ExtTreeMap.ofList ((ledger.tileSets.filter fun _ set => doomed set).values.map
        fun set => (set.id, ()))).contains (idOf key))[key]? = table[key]?) := by
  rw [Std.ExtTreeMap.getElem?_filter']
  constructor
  · intro hgone
    rw [Option.filter_eq_none_iff]
    simp [(contains_goneIds h doomed (idOf key)).mpr hgone]
  · intro hstays
    have hfalse := Bool.eq_false_of_not_eq_true (mt (contains_goneIds h doomed (idOf key)).mp hstays)
    cases table[key]? <;> simp [Option.filter, hfalse]

/-- Nothing is held of a tile set that is doomed. -/
theorem holding_drop_of_doomed {id : String} (hid : ledger.Doomed doomed id) :
    (ledger.drop doomed).2.holding id = .nothing := by
  simp only [holding, drop, Holding.nothing, Holding.mk.injEq]
  refine ⟨(getElem?_filter_goneIds h doomed ledger.tileSets (fun id => id) id).1 hid,
    (getElem?_filter_goneIds h doomed ledger.usage (fun id => id) id).1 hid, ?_⟩
  funext zoom row column
  exact (getElem?_filter_goneIds h doomed ledger.pages PageKey.tileSet ⟨id, zoom, row, column⟩).1 hid

/-- What is held of the other tile sets stays what it is. -/
theorem holding_drop_of_not_doomed {id : String} (hid : ¬ledger.Doomed doomed id) :
    (ledger.drop doomed).2.holding id = ledger.holding id := by
  simp only [holding, drop, Holding.mk.injEq]
  refine ⟨(getElem?_filter_goneIds h doomed ledger.tileSets (fun id => id) id).2 hid,
    (getElem?_filter_goneIds h doomed ledger.usage (fun id => id) id).2 hid, ?_⟩
  funext zoom row column
  exact (getElem?_filter_goneIds h doomed ledger.pages PageKey.tileSet ⟨id, zoom, row, column⟩).2 hid

/-- Everything is under its own key after tile sets were dropped. -/
theorem Keyed.drop : (ledger.drop doomed).2.Keyed := by
  rw [keyed_iff]
  intro id
  by_cases hid : ledger.Doomed doomed id
  · rw [holding_drop_of_doomed h doomed hid]
    exact Holding.keyedAt_nothing id
  · rw [holding_drop_of_not_doomed h doomed hid]
    exact keyed_iff.mp h id

end Drop

/-- A sound ledger is sound after tile sets were dropped. -/
theorem sound_drop (h : ledger.Sound) (doomed : TileSet → Bool) : (ledger.drop doomed).2.Sound := by
  refine (h.keyed.drop doomed).sound fun {id set} hset => ?_
  change (ledger.tileSets.filter _)[id]? = some set at hset
  rw [Std.ExtTreeMap.getElem?_filter', Option.filter_eq_some_iff] at hset
  exact (h.set_of hset.1).2

end Ledger

end TileDepot
