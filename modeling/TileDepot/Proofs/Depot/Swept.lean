import TileDepot.Proofs.Candidates
import TileDepot.Proofs.Depot.Booked

/-!
# Sweeps of a depot

A sweep that empties a page has the store delete its tiles, of which the accountant hears as of any other deletion, and
records the page as empty only then. So a depot is as up to date after a sweep as before it, whatever goes wrong on the way.
-/

namespace TileDepot

open Run (Agree)

namespace Depot

variable {table : CoverageTable} {upkeep : Upkeep table} {name : String} {record : Usage → Int → Int → Usage}
  {conditions : Conditions}

/-! ## The books -/

/-- A cell that is the books of the accountant as long as no other ledger has been loaded. -/
def GoesByBooks (books : Cell Depot Books) : Prop := ∀ depot : Depot, depot.loaded = none →
  books.read depot = booksCell.read depot ∧ ∀ written, books.write written depot = booksCell.write written depot

/-- The books of the accountant are themselves. -/
theorem goesByBooks_booksCell : GoesByBooks booksCell := fun _ _ => ⟨rfl, fun _ => rfl⟩

/-- The current books are those of the accountant until a ledger is loaded. -/
theorem goesByBooks_currentBooksCell : GoesByBooks currentBooksCell := by
  intro depot h
  refine ⟨?_, fun written => ?_⟩
  · simp [currentBooksCell, booksCell, currentLedger, h]
  · simp [currentBooksCell, booksCell, h]

variable {books : Cell Depot Books} {depot : Depot}

/-- A run on the books changes nothing else in a depot. -/
theorem GoesByBooks.onState {α : Type} (hbooks : GoesByBooks books) (h : depot.loaded = none) (run : Run Books α) :
    (books.run run).onState depot = ((run.onState ⟨depot.atlas, depot.ledger⟩).1,
      booksCell.write (run.onState ⟨depot.atlas, depot.ledger⟩).2 depot) := by
  rw [Run.onState_cell, (hbooks depot h).1, (hbooks depot h).2]
  rfl

/-- A depot stays up to date when pyramids are drawn. -/
theorem UpToDate.with_atlas (h : depot.UpToDate upkeep name) {atlas : Atlas} (hatlas : atlas.Faithful table) :
    ({ depot with atlas } : Depot).UpToDate upkeep name :=
  ⟨h.loaded, h.listeners, h.accountant, hatlas, h.holds⟩

/-- A question to the atlas is answered as the table has it. -/
theorem UpToDate.ask_atlas {α : Type} (h : depot.UpToDate upkeep name) (hbooks : GoesByBooks books) {run : Run Atlas α}
    {answer : Except Error α} (hrun : Atlas.Answers table run answer) :
    ∃ atlas : Atlas, atlas.Faithful table ∧
      (books.run (Books.atlasCell.run run)).onState depot = (answer, { depot with atlas }) := by
  obtain ⟨atlas, hatlas, hanswer⟩ := Books.onState_atlasCell ⟨depot.atlas, depot.ledger⟩ h.atlas hrun
  exact ⟨atlas, hatlas, by rw [hbooks.onState h.loaded, hanswer]; rfl⟩

/-- The candidates of a sweep are those that table and ledger determine. -/
theorem UpToDate.candidates (h : depot.UpToDate upkeep name) (hbooks : GoesByBooks books) (sets : List TileSet) :
    ∃ atlas : Atlas, Atlas.Draws table sets depot.atlas atlas ∧ (books.run (Sweeper.candidates sets)).onState depot =
      (.ok (sets.flatMap (depot.ledger.candidatesOf table)), { depot with atlas }) := by
  obtain ⟨atlas, hatlas, hanswer⟩ := Sweeper.candidates_onState sets ⟨depot.atlas, depot.ledger⟩ h.atlas
  exact ⟨atlas, hatlas, by rw [hbooks.onState h.loaded, hanswer]; rfl⟩

/-- To look for candidates leaves a depot up to date. -/
theorem agree_candidates (hbooks : GoesByBooks books) (sets : List TileSet) :
    Agree (UpToDate upkeep name) (books.run (Sweeper.candidates sets)) (books.run (Sweeper.candidates sets)) := by
  intro depot h
  obtain ⟨atlas, hatlas, hanswer⟩ := h.candidates hbooks sets
  rw [hanswer]
  exact ⟨rfl, h.with_atlas hatlas.faithful⟩

/-! ## Truncation -/

/-- What a depot keeps of a truncation before its tiles are deleted. -/
def noted (conditions : Conditions) (range : TileRange) (depot : Depot) : Depot :=
  { depot with
    truncated := depot.truncated ++ [range]
    cancelled := if conditions.cancelAt = some (depot.truncated.length + 1) then true else depot.cancelled }

/-- A depot stays up to date when a truncation is noted. -/
theorem UpToDate.noted (h : depot.UpToDate upkeep name) (conditions : Conditions) (range : TileRange) :
    (depot.noted conditions range).UpToDate upkeep name :=
  ⟨h.loaded, h.listeners, h.accountant, h.atlas, h.holds⟩

/-- A truncation is noted, and then refused or carried out. -/
theorem truncateBy_onState (record : Usage → Int → Int → Usage) (name : String) (conditions : Conditions) (range : TileRange)
    (depot : Depot) : (DepotPlan.truncateBy record name conditions range).onState depot =
      if conditions.failAt.contains (depot.truncated.length + 1) then
        (.error (.storage "breeder refused"), depot.noted conditions range)
      else (storeBy record name (.deleteRange range)).onState (depot.noted conditions range) := by
  unfold DepotPlan.truncateBy
  rw [Run.onState_bind_ok (Run.onState_step _ _)]
  have hdelete : ∀ after : Depot, (do
      if conditions.failAt.contains (depot.truncated.length + 1) then throw (.storage "breeder refused")
      storeBy record name (.deleteRange range) : Run Depot Bool).onState after =
        if conditions.failAt.contains (depot.truncated.length + 1) then (.error (.storage "breeder refused"), after)
        else (storeBy record name (.deleteRange range)).onState after := by
    intro after
    split <;> rfl
  unfold noted
  by_cases hcancel : conditions.cancelAt = some (depot.truncated.length + 1)
  · simp only [if_pos hcancel]
    exact hdelete _
  · simp only [if_neg hcancel]
    exact hdelete _

/-- A depot in which a range has been truncated: its tiles are gone, and the accountant has heard of every one of them. -/
structure Truncated {table : CoverageTable} (upkeep : Upkeep table) (name : String) (conditions : Conditions)
    (range : TileRange) (depot depot' : Depot) : Prop where
  upToDate : depot'.UpToDate upkeep name
  tiles : (depot'.store name).tiles = (depot.store name).tiles.filter fun key _ => !range.contains key
  heard : ((residentCell name).write ((depot.store name).deleteRange range).2 (depot.noted conditions range)).Heard upkeep
    ((depot.store name).deleteRange range).1 depot'

/-- A truncation loads no ledger. -/
theorem Truncated.loaded {range : TileRange} {depot' : Depot} (h : depot.Truncated upkeep name conditions range depot') :
    depot'.loaded = none := h.upToDate.loaded

/-- The events of a deletion are about tiles of the range. -/
theorem exists_of_mem_deleteRange {store : Resident} {range : TileRange} {event : Event}
    (h : event ∈ (store.deleteRange range).1) : ∃ tile size, event = .deleted tile size ∧ range.contains tile = true := by
  obtain ⟨entry, hentry, rfl⟩ := List.mem_map.mp h
  rw [Table.mem_toList, Std.ExtTreeMap.getElem?_filter', Option.filter_eq_some_iff] at hentry
  exact ⟨_, _, rfl, hentry.2⟩

/-- A truncation fails before anything is deleted, or else truncates the range, in whichever way usage is recorded. -/
theorem UpToDate.truncate (h : depot.UpToDate upkeep name) (conditions : Conditions) (range : TileRange) :
    (conditions.failAt.contains (depot.truncated.length + 1) = true ∧ ∃ error, ∀ record,
      (DepotPlan.truncateBy record name conditions range).onState depot = (.error error, depot.noted conditions range)) ∨
    ∃ answer depot', (∀ record, upkeep.Blind record →
        (DepotPlan.truncateBy record name conditions range).onState depot = (.ok answer, depot')) ∧
      depot.Truncated upkeep name conditions range depot' := by
  by_cases hfail : conditions.failAt.contains (depot.truncated.length + 1) = true
  · refine Or.inl ⟨hfail, .storage "breeder refused", fun record => ?_⟩
    rw [truncateBy_onState, if_pos hfail]
  · obtain ⟨depot', hrun, hafter, hheard⟩ := (h.noted conditions range).ask_of_ok (.deleteRange range) trivial
      (fun h => by cases h) rfl
    refine Or.inr ⟨!((depot.noted conditions range).store name |>.deleteRange range).1.isEmpty, depot',
      fun record hblind => ?_, hafter, ?_, hheard⟩
    · rw [truncateBy_onState, if_neg hfail]
      exact hrun record hblind
    · rw [hheard.store_eq, store_write]
      rfl

/-! ## Pages -/

variable {set : TileSet} {entry : PageEntry}

/-- A page that the table knows no area of is not truncated. -/
theorem UpToDate.truncatePage_of_error (h : depot.UpToDate upkeep name) (hbooks : GoesByBooks books) {error : Error}
    (harea : (table.draw set.layer set.gridset >>= fun pyramid => pyramid.areaOf entry.page.index) = .error error) :
    ∃ atlas : Atlas, atlas.Faithful table ∧ ∀ record,
      ((DepotPlan.sweeperBy record name conditions books).truncatePage set entry).onState depot =
        (.error error, { depot with atlas }) := by
  obtain ⟨atlas, hatlas, hanswer⟩ := h.ask_atlas hbooks (Atlas.answers_areaOf set entry.page)
  rw [harea] at hanswer
  exact ⟨atlas, hatlas, fun record => Run.onState_bind_error hanswer⟩

/-- A page that has an area is truncated, and recorded as empty unless the truncation fails. -/
theorem UpToDate.truncatePage_of_ok (h : depot.UpToDate upkeep name) (hbooks : GoesByBooks books) {pyramid : Pyramid}
    {area : Coverage} (hdraw : table.draw set.layer set.gridset = .ok pyramid)
    (harea : pyramid.areaOf entry.page.index = .ok area) :
    ∃ atlas : Atlas, atlas.Faithful table ∧ ∃ freed : Int, ∀ record,
      ((DepotPlan.sweeperBy record name conditions books).truncatePage set entry).onState depot =
        ((DepotPlan.truncateBy record name conditions (.ofPage set area) >>= fun _ => do
          let now ← Run.look fun depot => depot.clock.minutes
          books.run (Books.ledgerCell.change fun ledger => ledger.setTruncated set entry.page now)
          return freed).onState { depot with atlas }) := by
  obtain ⟨level, hlevel, -, -⟩ := Pyramid.areaOf_eq_ok_iff.mp harea
  obtain ⟨atlas, hatlas, hanswer⟩ := h.ask_atlas hbooks (Atlas.answers_areaOf set entry.page)
  obtain ⟨atlas', hatlas', hslots⟩ := (h.with_atlas hatlas).ask_atlas hbooks (Atlas.answers_tilesPerPage table set entry.page.zoom)
  rw [hdraw] at hanswer hslots
  change (books.run _).onState depot = (pyramid.areaOf entry.page.index, _) at hanswer
  change (books.run _).onState _ = (pyramid.tilesPerPage entry.page.index.zoom, _) at hslots
  rw [harea] at hanswer
  rw [Pyramid.tilesPerPage_of_some hlevel] at hslots
  refine ⟨atlas', hatlas', Sweeper.estimate entry.stats level.tilesPerPage
    ((books.read { depot with atlas := atlas' }).averageTileSize set.id), fun record => ?_⟩
  unfold Sweeper.truncatePage
  refine (Run.onState_bind_ok hanswer).trans ((Run.onState_bind_ok hslots).trans ?_)
  exact Run.onState_bind_ok (Run.onState_cell_get books { depot with atlas := atlas' })

/-- Once the area of a page has been truncated, no covered tile of the page is left. -/
theorem Truncated.countOn_eq_zero {depot' : Depot} {pyramid : Pyramid} {page : Page} {area : Coverage}
    (h : depot.Truncated upkeep name conditions (.ofPage set area) depot') (hset : set.Plain) (hid : page.tileSet = set.id)
    (hdraw : table.draw set.layer set.gridset = .ok pyramid) (harea : pyramid.areaOf page.index = .ok area)
    (hfits : table.Fits) : table.countOn page.key (depot'.store name).sizes = 0 := by
  refine Table.weigh_eq_zero fun key size hsize => if_neg fun hpage => ?_
  have hkey : key ∈ (depot'.store name).sizes := Table.mem_iff_exists.mpr ⟨size, hsize⟩
  have hplain : key.Plain := (upkeep.upheld.kept h.upToDate.holds).plain hkey
  have hgone := CoverageTable.contains_of_pageKeyOf? hfits hplain hset hid hdraw harea hpage
  rw [Resident.mem_sizes, Table.mem_iff_exists, h.tiles] at hkey
  obtain ⟨payload, hpayload⟩ := hkey
  rw [Std.ExtTreeMap.getElem?_filter', Option.filter_eq_some_iff, hgone] at hpayload
  exact absurd hpayload.2 (by decide)

/-- The depot once a truncated page has been recorded as empty. -/
def emptied (set : TileSet) (page : Page) (depot : Depot) : Depot :=
  { depot with ledger := depot.ledger.setTruncated set page depot.clock.minutes }

/-- A depot in which a page was truncated and recorded as empty is up to date. -/
theorem Truncated.emptied {depot' : Depot} {pyramid : Pyramid} {page : Page} {area : Coverage}
    (h : depot.Truncated upkeep name conditions (.ofPage set area) depot') (hset : set.Plain) (hid : page.tileSet = set.id)
    (hdraw : table.draw set.layer set.gridset = .ok pyramid) (harea : pyramid.areaOf page.index = .ok area) :
    (depot'.emptied set page).UpToDate upkeep name :=
  ⟨h.loaded, h.upToDate.listeners, h.upToDate.accountant, h.upToDate.atlas,
    upkeep.upheld.truncated h.upToDate.holds hset hid (h.countOn_eq_zero hset hid hdraw harea) _⟩

/-- What becomes of a page that has an area: its truncation fails, or it is truncated and recorded as empty. -/
theorem UpToDate.truncatePage_of_area (h : depot.UpToDate upkeep name) (hbooks : GoesByBooks books)
    (conditions : Conditions) {pyramid : Pyramid} {area : Coverage}
    (hdraw : table.draw set.layer set.gridset = .ok pyramid) (harea : pyramid.areaOf entry.page.index = .ok area) :
    (conditions.failAt.contains (depot.truncated.length + 1) = true ∧ ∃ error depot',
      (∀ record, ((DepotPlan.sweeperBy record name conditions books).truncatePage set entry).onState depot =
        (.error error, depot')) ∧ depot'.UpToDate upkeep name) ∨
    ∃ freed depot', (∀ record, upkeep.Blind record →
        ((DepotPlan.sweeperBy record name conditions books).truncatePage set entry).onState depot =
          (.ok freed, depot'.emptied set entry.page)) ∧
      ∃ atlas : Atlas, ({ depot with atlas } : Depot).Truncated upkeep name conditions (.ofPage set area) depot' := by
  obtain ⟨atlas, hatlas, freed, hrun⟩ := h.truncatePage_of_ok hbooks hdraw harea
  rcases (h.with_atlas hatlas).truncate conditions (.ofPage set area) with
    ⟨hfail, error, hfailed⟩ | ⟨answer, depot', htruncated, hafter⟩
  · refine Or.inl ⟨hfail, error, _, fun record => ?_, (h.with_atlas hatlas).noted conditions (.ofPage set area)⟩
    rw [hrun]
    exact Run.onState_bind_error (hfailed record)
  · refine Or.inr ⟨freed, depot', fun record hblind => ?_, atlas, hafter⟩
    rw [hrun]
    refine (Run.onState_bind_ok (htruncated record hblind)).trans ?_
    rw [Run.onState_bind_ok (Run.onState_look _ _)]
    refine (Run.onState_bind_ok (hbooks.onState hafter.loaded _)).trans ?_
    rfl

/-- Whatever becomes of a page, the depot stays up to date. -/
theorem UpToDate.truncatePage (h : depot.UpToDate upkeep name) (hbooks : GoesByBooks books) (conditions : Conditions)
    (hset : set.Plain) (hid : entry.page.tileSet = set.id) :
    ∃ outcome depot', (∀ record, upkeep.Blind record →
        ((DepotPlan.sweeperBy record name conditions books).truncatePage set entry).onState depot = (outcome, depot')) ∧
      depot'.UpToDate upkeep name := by
  cases harea : (table.draw set.layer set.gridset >>= fun pyramid => pyramid.areaOf entry.page.index) with
  | error error =>
    obtain ⟨atlas, hatlas, hrun⟩ := h.truncatePage_of_error hbooks harea
    exact ⟨_, _, fun record _ => hrun record, h.with_atlas hatlas⟩
  | ok area =>
    cases hdraw : table.draw set.layer set.gridset with
    | error error => rw [hdraw] at harea; cases harea
    | ok pyramid =>
      rw [hdraw] at harea
      rcases h.truncatePage_of_area hbooks conditions hdraw harea with
        ⟨-, error, depot', hrun, hafter⟩ | ⟨freed, depot', hrun, atlas, htruncated⟩
      · exact ⟨_, _, fun record _ => hrun record, hafter⟩
      · exact ⟨_, _, hrun, htruncated.emptied hset hid hdraw harea⟩

/-! ## Sweeps and enforcement -/

/-- To take a lock leaves a depot up to date. -/
theorem agree_acquire (lock : String) : Agree (UpToDate upkeep name) ((conditions.locks.locks DepotPlan.unheld).acquire lock)
    ((conditions.locks.locks DepotPlan.unheld).acquire lock) := by
  intro depot h
  refine ⟨rfl, ?_⟩
  rwa [LockPlan.onState_acquire_unheld]

/-- To release a lock leaves a depot up to date. -/
theorem agree_release (lock : String) : Agree (UpToDate upkeep name) ((conditions.locks.locks DepotPlan.unheld).release lock)
    ((conditions.locks.locks DepotPlan.unheld).release lock) := by
  intro depot h
  refine ⟨rfl, ?_⟩
  rwa [LockPlan.onState_release]

/-- The sweepers that record usage in either way. -/
theorem alike_sweeper (hbooks : GoesByBooks books) (hblind : upkeep.Blind record) (conditions : Conditions) :
    Sweeper.Alike (UpToDate upkeep name) (DepotPlan.sweeperBy Usage.record name conditions books)
      (DepotPlan.sweeperBy record name conditions books) where
  books := rfl
  locks := rfl
  cancelled := rfl
  acquire lock := agree_acquire lock
  release lock := agree_release lock
  candidates sets := agree_candidates hbooks sets
  page hset hid := by
    intro depot h
    obtain ⟨outcome, depot', hrun, hafter⟩ := h.truncatePage hbooks conditions hset hid
    rw [hrun record hblind, hrun Usage.record upkeep.blind_record]
    exact ⟨rfl, hafter⟩

/-- Recording usage in another way makes no difference to the enforcement of quotas. -/
theorem alike_enforcer (hblind : upkeep.Blind record) (conditions : Conditions) :
    Enforcer.Alike (UpToDate upkeep name) (DepotPlan.enforcerBy Usage.record name conditions)
      (DepotPlan.enforcerBy record name conditions) where
  accountant := rfl
  sweeper := alike_sweeper goesByBooks_booksCell hblind conditions

/-- The registered tile sets are plain. -/
theorem UpToDate.plain_tileSetsOf (h : depot.UpToDate upkeep name) (layer : String) :
    ∀ set ∈ depot.ledger.tileSetsOf layer, set.Plain := by
  intro set hset
  obtain ⟨hregistered, -⟩ := (Ledger.mem_tileSetsOf (upkeep.upheld.kept h.holds).sound).mp hset
  exact ((upkeep.upheld.kept h.holds).sound.set_of hregistered).2

/-- The tile sets that the global quota is for have plain names. -/
theorem UpToDate.plain_globalTileSets (h : depot.UpToDate upkeep name) (accountant : Accountant) :
    ∀ set ∈ accountant.globalTileSets depot.ledger, set.Plain := by
  intro set hset
  obtain ⟨layer, -, hset⟩ := List.mem_flatMap.mp hset
  exact h.plain_tileSetsOf layer set hset

/-! ## Requests -/

/-- A depot stays up to date as its next step begins. -/
theorem UpToDate.nextStep (h : depot.UpToDate upkeep name) (cancelled : Bool) :
    (depot.nextStep cancelled).UpToDate upkeep name :=
  ⟨h.loaded, h.listeners, h.accountant, h.atlas, h.holds⟩

/-- Hits on a tile. -/
theorem UpToDate.hits (h : depot.UpToDate upkeep name) {tile : TileKey} (htile : tile.Plain) (hits : Nat) :
    ((booksCell.run (Books.recordHits tile.tileSet tile.x tile.y tile.z hits depot.clock.minutes)).onState depot).2.UpToDate
      upkeep name := by
  obtain ⟨atlas, hatlas, hrecorded⟩ := Books.recordHits_onState ⟨depot.atlas, depot.ledger⟩ h.atlas tile hits
    depot.clock.minutes
  rw [goesByBooks_booksCell.onState h.loaded, hrecorded]
  cases hlevel : table.levelOf? tile with
  | none => exact h.with_atlas hatlas
  | some level =>
    exact ⟨h.loaded, h.listeners, h.accountant, hatlas, upkeep.upheld.hits h.holds htile hlevel hits _⟩

/-- A request leaves a depot up to date, and recording usage in another way makes no difference to it. -/
theorem UpToDate.perform (h : depot.UpToDate upkeep name) (hblind : upkeep.Blind record) {request : Request}
    (hrequest : request.Admissible table) (hclear : request = .call .clear → upkeep.Clears) :
    request.performBy record name depot = request.perform name depot ∧ (request.perform name depot).UpToDate upkeep name := by
  rw [← Request.performBy_record]
  cases request with
  | call asked =>
    obtain ⟨heq, hafter⟩ := agree_ask hblind hrequest (fun hasked => hclear (hasked ▸ rfl)) _ (h.nextStep false)
    exact ⟨congrArg Prod.snd heq, hafter⟩
  | hits tile hits => exact ⟨rfl, (h.nextStep false).hits hrequest hits⟩
  | enforce conditions layer =>
    obtain ⟨heq, hafter⟩ := (alike_enforcer hblind conditions).enforce layer
      (fun depot h => h.plain_tileSetsOf layer) _ (h.nextStep conditions.cancelled)
    exact ⟨congrArg Prod.snd heq, hafter⟩
  | enforceGlobal conditions =>
    obtain ⟨heq, hafter⟩ := (alike_enforcer hblind conditions).enforceGlobal
      (fun depot h => h.plain_globalTileSets _) _ (h.nextStep conditions.cancelled)
    exact ⟨congrArg Prod.snd heq, hafter⟩
  | sweep conditions sets policy deficit =>
    obtain ⟨heq, hafter⟩ := (alike_sweeper goesByBooks_currentBooksCell hblind conditions).sweep hrequest policy deficit _
      (h.nextStep conditions.cancelled)
    exact ⟨congrArg Prod.snd heq, hafter⟩
  | setClock clock => exact ⟨rfl, h.loaded, h.listeners, h.accountant, h.atlas, h.holds⟩

/-- So do many requests. -/
theorem UpToDate.serve (hblind : upkeep.Blind record) : ∀ (requests : List Request) {depot : Depot},
    depot.UpToDate upkeep name → (∀ request ∈ requests, request.Admissible table) →
      (.call .clear ∈ requests → upkeep.Clears) →
        depot.serveBy record name requests = depot.serve name requests ∧ (depot.serve name requests).UpToDate upkeep name := by
  intro requests
  induction requests with
  | nil => intro depot h _ _; exact ⟨rfl, h⟩
  | cons request requests ih =>
    intro depot h hrequests hclear
    obtain ⟨heq, hafter⟩ := h.perform hblind (hrequests request List.mem_cons_self)
      fun hrequest => hclear (hrequest ▸ List.mem_cons_self)
    obtain ⟨heq', hafter'⟩ := ih hafter (fun request hrequest => hrequests request (List.mem_cons_of_mem _ hrequest))
      fun hmem => hclear (List.mem_cons_of_mem _ hmem)
    refine ⟨?_, hafter'⟩
    rw [serveBy, List.foldl_cons, heq]
    exact heq'

/-- A depot is opened with an empty store. -/
theorem store_opened (name : String) (clock : Clock) (table : CoverageTable) (accountant : Option Accountant) :
    ((DepotPlan.single name .calm).opened clock table accountant).store name = .empty := by
  unfold Depot.store residentCell DepotPlan.opened DepotPlan.single StoreTree.nodes
  simp [Std.ExtTreeMap.ofList_cons]

/-- Before the first request nothing is stored and nothing is recorded. -/
theorem upToDate_start (upkeep : Upkeep table) (name : String) (clock : Clock) {accountant : Accountant}
    (hfits : upkeep.fits accountant) (hempty : upkeep.holds ∅ .empty) :
    (start name clock table accountant).UpToDate upkeep name := by
  have hopened : ((residentCell name).inside .whole).read ((DepotPlan.single name .calm).opened clock table (some accountant)) =
      .empty := store_opened name clock table (some accountant)
  have hstore : (start name clock table accountant).store name = { Resident.empty with listeners := ⟨[.accountant]⟩ } := by
    change ((residentCell name).write _ _).store name = _
    rw [store_write, hopened]
    rfl
  have hsizes : ((start name clock table accountant).store name).sizes = ∅ := by
    refine Std.ExtTreeMap.ext_getElem? fun key => ?_
    rw [hstore, Resident.getElem?_sizes]
    simp [Resident.empty]
  refine ⟨rfl, by rw [hstore], ⟨accountant, rfl, hfits⟩, Atlas.faithful_ofTable table, ?_⟩
  rw [hsizes]
  exact hempty

end Depot

end TileDepot
