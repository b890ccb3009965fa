import Mathlib.Data.List.Forall2
import TileDepot.Proofs.Depot.Swept

/-!
# Pages emptied

When nothing goes wrong, a sweep empties the candidates it comes to, one after the other. What becomes of a depot in which
some pages are emptied is known: these pages are empty now and were not before, and apart from them neither the pages nor
the tile sets of the ledger have changed, nor the tiles of other tile sets.
-/

namespace TileDepot

namespace Ledger

variable {table : CoverageTable} {rounded : Nat → Nat} {ledger ledger' : Ledger} {set : TileSet} {pageKey : PageKey} {now : Int}

/-- A ledger with the tile sets of another and with its pages but one. -/
structure SameBut (pageKey : PageKey) (ledger ledger' : Ledger) : Prop where
  tileSets : ledger'.tileSets = ledger.tileSets
  pages : ∀ {key : PageKey}, key ≠ pageKey → ledger'.pages[key]? = ledger.pages[key]?

/-- A ledger is the same as itself. -/
theorem SameBut.refl (pageKey : PageKey) (ledger : Ledger) : SameBut pageKey ledger ledger := ⟨rfl, fun _ => rfl⟩

/-- Ledgers that are the same but for one page, one after the other, are the same but for that page. -/
theorem SameBut.trans {between : Ledger} (h : SameBut pageKey ledger between) (h' : SameBut pageKey between ledger') :
    SameBut pageKey ledger ledger' :=
  ⟨h'.tileSets.trans h.tileSets, fun hkey => (h'.pages hkey).trans (h.pages hkey)⟩

/-- A tile of a registered tile set deleted: only its page changes. -/
theorem sameBut_heard_deleted (rounded : Nat → Nat) (now : Int) {tile : TileKey}
    (hset : ledger.tileSets[tile.tileSet.id]? = some tile.tileSet)
    (hpage : ∀ level, table.levelOf? tile = some level → tile.pageIn level = pageKey) (size : Nat) :
    SameBut pageKey ledger (ledger.heard table rounded (.deleted tile size) now) := by
  rw [heard_of_tile rfl]
  unfold recorded
  cases hlevel : table.levelOf? tile with
  | none => exact .refl pageKey ledger
  | some level =>
    refine ⟨?_, fun hkey => ?_⟩
    · change (ledger.register tile.tileSet).tileSets = ledger.tileSets
      rw [register_of_registered hset]
    · rw [pages_addTilesBy, if_neg]
      rw [TileKey.key_pageAt, hpage level hlevel]
      exact hkey.symm

/-- Tiles of one page of a registered tile set deleted. -/
theorem sameBut_heard (hset : ledger.tileSets[set.id]? = some set) : ∀ {events : List Event},
    (∀ event ∈ events, ∃ tile size, event = .deleted tile size ∧ tile.tileSet = set ∧
      ∀ level, table.levelOf? tile = some level → tile.pageIn level = pageKey) →
    SameBut pageKey ledger (events.foldl (fun ledger event => ledger.heard table rounded event now) ledger) := by
  intro events
  induction events generalizing ledger with
  | nil => intro _; exact .refl pageKey ledger
  | cons event events ih =>
    intro hevents
    obtain ⟨tile, size, rfl, rfl, hpage⟩ := hevents event List.mem_cons_self
    have hfirst := sameBut_heard_deleted rounded now hset hpage size
    refine hfirst.trans (ih ?_ fun event hevent => hevents event (List.mem_cons_of_mem _ hevent))
    rw [hfirst.tileSets]
    exact hset

/-- A page of a registered tile set recorded as empty. -/
theorem sameBut_setTruncated (hset : ledger.tileSets[set.id]? = some set) (page : Page) (now : Int) :
    SameBut page.key ledger (ledger.setTruncated set page now) := by
  refine ⟨?_, fun hkey => ?_⟩
  · change (ledger.register set).tileSets = ledger.tileSets
    rw [register_of_registered hset]
  · rw [setTruncated, pages_changeStats, if_neg hkey.symm]

/-- A page that is recorded as empty is known to be empty. -/
theorem emptied_setTruncated (ledger : Ledger) (set : TileSet) (page : Page) (now : Int) :
    (ledger.setTruncated set page now).Emptied page.key := by
  unfold Emptied setTruncated
  rw [pages_changeStats, if_pos rfl]
  exact ⟨_, rfl, rfl⟩

/-- With one more page emptied, the pages known to be empty are those from before and this one. -/
theorem SameBut.emptied_iff (h : SameBut pageKey ledger ledger') (hpage : ledger'.Emptied pageKey) (key : PageKey) :
    ledger'.Emptied key ↔ ledger.Emptied key ∨ key = pageKey := by
  by_cases hkey : key = pageKey
  · subst hkey
    exact iff_of_true hpage (Or.inr rfl)
  · unfold Emptied
    rw [h.pages hkey, or_iff_left hkey]

end Ledger

namespace Depot

variable {table : CoverageTable} {upkeep : Upkeep table} {name : String} {sets : List TileSet}

/-- The range that is truncated for a page of one of some tile sets. -/
def RangeOf (table : CoverageTable) (sets : List TileSet) (page : Page) (range : TileRange) : Prop :=
  ∃ set ∈ sets, ∃ pyramid area, page.tileSet = set.id ∧ table.draw set.layer set.gridset = .ok pyramid ∧
    pyramid.areaOf page.index = .ok area ∧ range = .ofPage set area

/-- A depot after some pages of some tile sets have been emptied, one after the other. -/
structure Emptying (table : CoverageTable) (name : String) (sets : List TileSet) (pages : List Page) (depot depot' : Depot) :
    Prop where
  accountant : depot'.accountant = depot.accountant
  cancelled : depot'.cancelled = depot.cancelled
  tileSets : depot'.ledger.tileSets = depot.ledger.tileSets
  emptied : ∀ key, depot'.ledger.Emptied key ↔ depot.ledger.Emptied key ∨ key ∈ pages.map Page.key
  fresh : ∀ page ∈ pages, ¬depot.ledger.Emptied page.key
  nodup : (pages.map Page.key).Nodup
  ranges : ∃ ranges, depot'.truncated = depot.truncated ++ ranges ∧ List.Forall₂ (RangeOf table sets) pages ranges
  others : ∀ key : TileKey, key.tileSet ∉ sets → (depot'.store name).tiles[key]? = (depot.store name).tiles[key]?

namespace Emptying

variable {pages pages' : List Page} {depot between depot' : Depot}

/-- A depot in which at most other pyramids have been drawn. -/
theorem with_atlas (table : CoverageTable) (name : String) (sets : List TileSet) (depot : Depot) (atlas : Atlas) :
    Emptying table name sets [] depot { depot with atlas } where
  accountant := rfl
  cancelled := rfl
  tileSets := rfl
  emptied key := by simp
  fresh page h := by cases h
  nodup := List.nodup_nil
  ranges := ⟨[], (List.append_nil _).symm, .nil⟩
  others key _ := rfl

/-- A depot in which no page was emptied is the depot itself. -/
theorem refl (table : CoverageTable) (name : String) (sets : List TileSet) (depot : Depot) :
    Emptying table name sets [] depot depot := with_atlas table name sets depot depot.atlas

/-- Pages emptied in two stretches are emptied one after the other. -/
theorem append (h : Emptying table name sets pages depot between) (h' : Emptying table name sets pages' between depot') :
    Emptying table name sets (pages ++ pages') depot depot' where
  accountant := h'.accountant.trans h.accountant
  cancelled := h'.cancelled.trans h.cancelled
  tileSets := h'.tileSets.trans h.tileSets
  emptied key := by rw [h'.emptied, h.emptied, List.map_append, List.mem_append, or_assoc]
  fresh page hpage := by
    rcases List.mem_append.mp hpage with hpage | hpage
    · exact h.fresh page hpage
    · exact fun hemptied => h'.fresh page hpage ((h.emptied _).mpr (Or.inl hemptied))
  nodup := by
    rw [List.map_append, List.nodup_append]
    refine ⟨h.nodup, h'.nodup, fun key hkey key' hkey' heq => ?_⟩
    obtain ⟨page, hpage, rfl⟩ := List.mem_map.mp hkey'
    exact h'.fresh page hpage ((h.emptied _).mpr (Or.inr (heq ▸ hkey)))
  ranges := by
    obtain ⟨ranges, htruncated, hranges⟩ := h.ranges
    obtain ⟨ranges', htruncated', hranges'⟩ := h'.ranges
    refine ⟨ranges ++ ranges', ?_, List.rel_append hranges hranges'⟩
    rw [htruncated', htruncated, List.append_assoc]
  others key hkey := (h'.others key hkey).trans (h.others key hkey)

/-- Every page emptied is one of the tile sets, with an area. -/
theorem exists_rangeOf (h : Emptying table name sets pages depot depot') {page : Page} (hpage : page ∈ pages) :
    ∃ range, RangeOf table sets page range := by
  obtain ⟨ranges, -, hranges⟩ := h.ranges
  clear h
  induction hranges with
  | nil => cases hpage
  | cons hfirst _ ih =>
    rcases List.mem_cons.mp hpage with rfl | hpage
    · exact ⟨_, hfirst⟩
    · exact ih hpage

end Emptying

/-! ## One page -/

variable {conditions : Conditions} {depot : Depot} {set : TileSet} {entry : PageEntry} {pyramid : Pyramid} {area : Coverage}

/-- A page that is tried is truncated under its lock, which can be taken. -/
theorem onState_tryPage (hcalm : conditions.Calm) (record : Usage → Int → Int → Usage) {outcome : Except Error Int}
    {depot' : Depot} (h : ((DepotPlan.sweeperBy record name conditions booksCell).truncatePage set entry).onState depot =
      (outcome, depot')) :
    ((DepotPlan.sweeperBy record name conditions booksCell).tryPage set entry).onState depot = (.ok outcome.toOption, depot') := by
  rw [Sweeper.onState_tryPage (LockPlan.onState_acquire_free hcalm.refused _ depot) h]
  exact congrArg (Prod.mk _) (conditions.locks.onState_release DepotPlan.unheld _ depot')

/-- What emptying one page does to a depot. -/
theorem Truncated.emptying {depot' : Depot} {page : Page} (hfits : table.Fits)
    (h : depot.Truncated upkeep name conditions (.ofPage set area) depot') (hcalm : conditions.Calm) (hset : set.Plain)
    (hmem : set ∈ sets) (hregistered : depot.ledger.tileSets[set.id]? = some set) (hid : page.tileSet = set.id)
    (hdraw : table.draw set.layer set.gridset = .ok pyramid) (harea : pyramid.areaOf page.index = .ok area)
    (hfresh : ¬depot.ledger.Emptied page.key) : Emptying table name sets [page] depot (depot'.emptied set page) := by
  have hheard := h.heard
  have hledger : Ledger.SameBut page.key depot.ledger depot'.ledger := by
    rw [hheard.ledger]
    refine Ledger.sameBut_heard hregistered fun event hevent => ?_
    obtain ⟨tile, size, rfl, hcontains⟩ := exists_of_mem_deleteRange hevent
    obtain rfl := CoverageTable.tileSet_of_contains hset hcontains
    exact ⟨tile, size, rfl, rfl,
      fun level hlevel => (CoverageTable.contains_ofPage_iff hfits hid hdraw harea hlevel).mp hcontains⟩
  have hbut := hledger.trans (Ledger.sameBut_setTruncated (hledger.tileSets ▸ hregistered) page depot'.clock.minutes)
  have hrest := hheard.rest
  refine ⟨?_, ?_, hbut.tileSets, fun key => ?_, ?_, List.nodup_singleton _, ?_, fun key hkey => ?_⟩
  · refine (hheard.accountant fun event hevent => ?_).trans rfl
    obtain ⟨tile, size, rfl, -⟩ := exists_of_mem_deleteRange hevent
    exact Option.some_ne_none tile
  · change depot'.cancelled = depot.cancelled
    rw [hrest]
    exact if_neg (by simp [hcalm.cancelAt])
  · rw [List.map_singleton, List.mem_singleton]
    exact hbut.emptied_iff (Ledger.emptied_setTruncated _ _ _ _) key
  · intro other hother
    rwa [List.mem_singleton.mp hother]
  · refine ⟨[.ofPage set area], ?_, .cons ⟨set, hmem, pyramid, area, hid, hdraw, harea, rfl⟩ .nil⟩
    change depot'.truncated = _
    rw [hrest]
    rfl
  · change (depot'.store name).tiles[key]? = _
    have hkept : (TileRange.ofPage set area).contains key = false := by
      refine Bool.eq_false_iff.mpr fun hcontains => hkey ?_
      rwa [CoverageTable.tileSet_of_contains hset hcontains]
    rw [h.tiles, Std.ExtTreeMap.getElem?_filter']
    cases (depot.store name).tiles[key]? with
    | none => rfl
    | some payload => simp [Option.filter, hkept]

/-- A candidate without an area is passed over. -/
theorem UpToDate.tryPage_of_error (h : depot.UpToDate upkeep name) (hcalm : conditions.Calm) (entry : PageEntry) {error : Error}
    (harea : (table.draw set.layer set.gridset >>= fun pyramid => pyramid.areaOf entry.page.index) = .error error) :
    ∃ atlas : Atlas, atlas.Faithful table ∧
      ((DepotPlan.sweeperBy Usage.record name conditions booksCell).tryPage set entry).onState depot =
        (.ok none, { depot with atlas }) := by
  obtain ⟨atlas, hatlas, hrun⟩ := h.truncatePage_of_error goesByBooks_booksCell harea
  exact ⟨atlas, hatlas, onState_tryPage hcalm _ (hrun _)⟩

/-- A candidate with an area is emptied. -/
theorem UpToDate.tryPage_of_ok (hfits : table.Fits) (h : depot.UpToDate upkeep name) (hcalm : conditions.Calm) (hset : set.Plain)
    (hmem : set ∈ sets) (hregistered : depot.ledger.tileSets[set.id]? = some set) (hid : entry.page.tileSet = set.id)
    (hdraw : table.draw set.layer set.gridset = .ok pyramid) (harea : pyramid.areaOf entry.page.index = .ok area)
    (hfresh : ¬depot.ledger.Emptied entry.page.key) :
    ∃ freed depot', ((DepotPlan.sweeperBy Usage.record name conditions booksCell).tryPage set entry).onState depot =
        (.ok (some freed), depot') ∧
      depot'.UpToDate upkeep name ∧ Emptying table name sets [entry.page] depot depot' := by
  have hcount : conditions.failAt.contains (depot.truncated.length + 1) = false := by
    rw [hcalm.failAt]
    rfl
  rcases h.truncatePage_of_area goesByBooks_booksCell conditions hdraw harea with
    ⟨hfail, -⟩ | ⟨freed, depot', hrun, atlas, htruncated⟩
  · rw [hcount] at hfail
    cases hfail
  · refine ⟨freed, depot'.emptied set entry.page, onState_tryPage hcalm _ (hrun _ upkeep.blind_record),
      htruncated.emptied hset hid hdraw harea, ?_⟩
    exact (Emptying.with_atlas table name sets depot atlas).append
      (htruncated.emptying hfits hcalm hset hmem hregistered hid hdraw harea hfresh)

/-! ## One sweep -/

/-- A page that a sweep over tile sets found by their identifiers can empty. -/
def Truncatable (table : CoverageTable) (byId : Std.ExtTreeMap String TileSet) (key : PageKey) : Prop :=
  ∃ set pyramid area, byId[key.tileSet]? = some set ∧ table.draw set.layer set.gridset = .ok pyramid ∧
    pyramid.areaOf ⟨key.column, key.row, key.zoom⟩ = .ok area

/-- The page of a covered tile can be emptied. -/
theorem truncatable_of_covered {byId : Std.ExtTreeMap String TileSet} {key : TileKey} {level : Level}
    (hlevel : table.levelOf? key = some level) (hset : byId[key.tileSet.id]? = some key.tileSet) :
    Truncatable table byId (key.pageIn level) := by
  obtain ⟨pyramid, hdraw, -, hlevels, hcontains⟩ := CoverageTable.levelOf?_eq_some_iff.mp hlevel
  exact ⟨key.tileSet, pyramid, _, hset, hdraw,
    Pyramid.areaOf_eq_ok_iff.mpr ⟨level, hlevels, Level.pageOf_lt hcontains, rfl⟩⟩

/-- A candidate that is left to be emptied is left after one that cannot be. -/
theorem exists_rest_of_not {byId : Std.ExtTreeMap String TileSet} {rest : List PageEntry}
    {tried : Std.ExtTreeMap PageKey Unit} (hnot : ¬Truncatable table byId entry.page.key)
    (h : ∃ other ∈ entry :: rest, other.page.key ∉ tried ∧ Truncatable table byId other.page.key) :
    ∃ other ∈ rest, other.page.key ∉ tried.insert entry.page.key () ∧ Truncatable table byId other.page.key := by
  obtain ⟨other, hother, hnew, htruncatable⟩ := h
  rcases List.mem_cons.mp hother with rfl | hother
  · exact absurd htruncatable hnot
  · refine ⟨other, hother, fun hmem => ?_, htruncatable⟩
    rcases Std.ExtTreeMap.mem_insert.mp hmem with hsame | hmem
    · exact hnot (Std.LawfulEqOrd.eq_of_compare hsame ▸ htruncatable)
    · exact hnew hmem

/-- A candidate is passed over if it cannot be emptied, and emptied if it can. -/
theorem UpToDate.tryPage (hfits : table.Fits) (h : depot.UpToDate upkeep name) (hcalm : conditions.Calm)
    {byId : Std.ExtTreeMap String TileSet} (hset : byId[entry.page.key.tileSet]? = some set) (hplain : set.Plain) (hmem : set ∈ sets)
    (hregistered : depot.ledger.tileSets[set.id]? = some set) (hid : entry.page.tileSet = set.id)
    (hfresh : ¬depot.ledger.Emptied entry.page.key) :
    (¬Truncatable table byId entry.page.key ∧ ∃ atlas : Atlas, atlas.Faithful table ∧
      ((DepotPlan.sweeperBy Usage.record name conditions booksCell).tryPage set entry).onState depot =
        (.ok none, { depot with atlas })) ∨
    ∃ freed depot', ((DepotPlan.sweeperBy Usage.record name conditions booksCell).tryPage set entry).onState depot =
        (.ok (some freed), depot') ∧
      depot'.UpToDate upkeep name ∧ Emptying table name sets [entry.page] depot depot' := by
  cases harea : (table.draw set.layer set.gridset >>= fun pyramid => pyramid.areaOf entry.page.index) with
  | error error =>
    refine Or.inl ⟨?_, h.tryPage_of_error hcalm entry harea⟩
    rintro ⟨set', pyramid, area, hfound, hdraw, hok⟩
    obtain rfl := Option.some.inj (hset.symm.trans hfound)
    rw [hdraw] at harea
    exact absurd (harea.symm.trans hok) (by simp)
  | ok area =>
    cases hdraw : table.draw set.layer set.gridset with
    | error error =>
      rw [hdraw] at harea
      cases harea
    | ok pyramid =>
      rw [hdraw] at harea
      exact Or.inr (h.tryPage_of_ok hfits hcalm hplain hmem hregistered hid hdraw harea hfresh)

/-- A sweep that has gone on from a depot: it has ended well in a depot that is up to date, it has counted the pages that it has
emptied since, and has emptied one if it had something to do. -/
def SweptOn (upkeep : Upkeep table) (name : String) (sets : List TileSet) (something : Prop) (swept : Swept) (depot : Depot)
    (outcome : Except Error Swept × Depot) : Prop :=
  ∃ swept' pages depot', outcome = (.ok swept', depot') ∧ depot'.UpToDate upkeep name ∧
    Emptying table name sets pages depot depot' ∧ swept'.pages = swept.pages + pages.length ∧ (something → pages ≠ [])

namespace SweptOn

variable {something something' : Prop} {swept : Swept} {outcome : Except Error Swept × Depot}

/-- A sweep that has nothing left to do. -/
theorem idle (h : depot.UpToDate upkeep name) (hnothing : ¬something) :
    SweptOn upkeep name sets something swept depot (.ok swept, depot) :=
  ⟨swept, [], depot, rfl, h, .refl table name sets depot, rfl, fun hsomething => absurd hsomething hnothing⟩

/-- What is known of a sweep may be known under a stronger premise. -/
theorem imp (h : SweptOn upkeep name sets something swept depot outcome) (himp : something' → something) :
    SweptOn upkeep name sets something' swept depot outcome := by
  obtain ⟨swept', pages, depot', hrun, hafter, hemptying, hpages, hprogress⟩ := h
  exact ⟨swept', pages, depot', hrun, hafter, hemptying, hpages, hprogress ∘ himp⟩

/-- A sweep that has drawn other pyramids before. -/
theorem of_atlas {atlas : Atlas} (h : SweptOn upkeep name sets something swept { depot with atlas } outcome) :
    SweptOn upkeep name sets something swept depot outcome := by
  obtain ⟨swept', pages, depot', hrun, hafter, hemptying, hpages, hprogress⟩ := h
  exact ⟨swept', pages, depot', hrun, hafter, (Emptying.with_atlas table name sets depot atlas).append hemptying, hpages,
    hprogress⟩

/-- A sweep that has emptied a page before. -/
theorem of_page {page : Page} {freed : Int} {between : Depot} (hfirst : Emptying table name sets [page] depot between)
    (h : SweptOn upkeep name sets something' (swept.addPage freed) between outcome) :
    SweptOn upkeep name sets something swept depot outcome := by
  obtain ⟨swept', pages, depot', hrun, hafter, hemptying, hpages, -⟩ := h
  refine ⟨swept', page :: pages, depot', hrun, hafter, hfirst.append hemptying, ?_, fun _ => List.cons_ne_nil _ _⟩
  rw [hpages, List.length_cons]
  change swept.pages + 1 + pages.length = _
  omega

end SweptOn

/-- Once a candidate has been emptied and counts as tried, no candidate that has not been tried has been emptied. -/
theorem Emptying.untried {entry : PageEntry} {rest : List PageEntry} {tried : Std.ExtTreeMap PageKey Unit} {depot' : Depot}
    (h : Emptying table name sets [entry.page] depot depot')
    (hrest : ∀ other ∈ rest, other.page.key ∉ tried.insert entry.page.key () → ¬depot.ledger.Emptied other.page.key) :
    ∀ other ∈ rest, other.page.key ∉ tried.insert entry.page.key () → ¬depot'.ledger.Emptied other.page.key := by
  intro other hother hnew
  rw [h.emptied, List.map_singleton, List.mem_singleton]
  rintro (hemptied | hsame)
  · exact hrest other hother hnew hemptied
  · exact hnew (hsame ▸ Std.ExtTreeMap.mem_insert_self)

/-- Candidates emptied in turn. None has been emptied before unless it has been tried, and as long as something is to be
freed, a candidate that can be emptied is. -/
theorem UpToDate.sweepFrom (hfits : table.Fits) (sets : List TileSet) (hcalm : conditions.Calm)
    {byId : Std.ExtTreeMap String TileSet} (deficit : ByteSize)
    (hbyId : ∀ {id : String} {set : TileSet}, byId[id]? = some set → set.id = id ∧ set ∈ sets)
    (hplain : ∀ set ∈ sets, set.Plain) : ∀ (entries : List PageEntry) (tried : Std.ExtTreeMap PageKey Unit) (swept : Swept)
      {depot : Depot}, depot.UpToDate upkeep name → depot.cancelled = false →
      (∀ set ∈ sets, depot.ledger.tileSets[set.id]? = some set) →
      (∀ entry ∈ entries, entry.page.key ∉ tried → ¬depot.ledger.Emptied entry.page.key) →
        SweptOn upkeep name sets
          (swept.freed.bytes < deficit.bytes ∧
            ∃ entry ∈ entries, entry.page.key ∉ tried ∧ Truncatable table byId entry.page.key) swept depot
          (((DepotPlan.sweeperBy Usage.record name conditions booksCell).sweepFrom byId deficit entries tried swept).onState
            depot) := by
  intro entries
  induction entries with
  | nil =>
    intro tried swept depot h _ _ _
    exact .idle h fun ⟨_, _, hentry, _⟩ => List.not_mem_nil hentry
  | cons entry rest ih =>
    intro tried swept depot h hcancelled hregistered hentries
    have hgoes : (DepotPlan.sweeperBy Usage.record name conditions booksCell).cancelled depot = false := hcancelled
    have hrest : ∀ other ∈ rest, other.page.key ∉ tried.insert entry.page.key () → ¬depot.ledger.Emptied other.page.key :=
      fun other hother hnew => hentries other (List.mem_cons_of_mem _ hother) fun htried =>
        hnew (Std.ExtTreeMap.mem_insert.mpr (Or.inr htried))
    by_cases hcovered : deficit.bytes ≤ swept.freed.bytes
    · rw [Sweeper.onState_sweepFrom_of_covered hgoes hcovered]
      exact .idle h fun hsomething => absurd hcovered (Int.not_le.mpr hsomething.1)
    have hshort : swept.freed.bytes < deficit.bytes := Int.not_le.mp hcovered
    cases htried : tried.contains entry.page.key with
    | true =>
      rw [Sweeper.onState_sweepFrom_of_tried hgoes hshort htried]
      refine (ih tried swept h hcancelled hregistered fun other hother =>
        hentries other (List.mem_cons_of_mem _ hother)).imp (And.imp_right ?_)
      rintro ⟨other, hother, hnew, htruncatable⟩
      rcases List.mem_cons.mp hother with rfl | hother
      · exact absurd htried hnew
      · exact ⟨other, hother, hnew, htruncatable⟩
    | false =>
      cases hset : byId[entry.page.key.tileSet]? with
      | none =>
        have hnot : ¬Truncatable table byId entry.page.key := by
          rintro ⟨set, _, _, hfound, -⟩
          rw [hset] at hfound
          cases hfound
        rw [Sweeper.onState_sweepFrom_of_unknown hgoes hshort htried hset]
        exact (ih _ swept h hcancelled hregistered hrest).imp (And.imp_right (exists_rest_of_not hnot))
      | some set =>
        obtain ⟨hid, hmem⟩ := hbyId hset
        have hfresh := hentries entry List.mem_cons_self fun hmem => Bool.false_ne_true (htried.symm.trans hmem)
        rcases h.tryPage hfits hcalm hset (hplain set hmem) hmem (hregistered set hmem) hid.symm hfresh with
          ⟨hnot, atlas, hatlas, htry⟩ | ⟨freed, between, htry, hbetween, hfirst⟩
        · rw [Sweeper.onState_sweepFrom_cons hgoes hshort htried hset htry]
          exact .of_atlas ((ih _ swept (h.with_atlas hatlas) hcancelled hregistered hrest).imp
            (And.imp_right (exists_rest_of_not hnot)))
        · rw [Sweeper.onState_sweepFrom_cons hgoes hshort htried hset htry]
          refine .of_page hfirst (ih _ (swept.addPage freed) hbetween (hfirst.cancelled.trans hcancelled)
            (fun set hset => by rw [hfirst.tileSets]; exact hregistered set hset) ?_)
          exact hfirst.untried hrest

/-- The tile sets given, found by their identifiers. -/
theorem getElem?_byId (hplain : ∀ set ∈ sets, set.Plain) {set : TileSet} (hset : set ∈ sets) :
    (Std.ExtTreeMap.ofList (sets.map fun set => (set.id, set)))[set.id]? = some set := by
  have hmem : set.id ∈ Std.ExtTreeMap.ofList (sets.map fun set => (set.id, set)) := by
    rw [Std.ExtTreeMap.mem_ofList, List.contains_iff_mem, List.map_map]
    exact List.mem_map_of_mem hset
  obtain ⟨found, hfound⟩ := Table.mem_iff_exists.mp hmem
  obtain ⟨set', hset', heq⟩ := List.mem_map.mp (Table.mem_of_getElem?_ofList hfound)
  obtain ⟨hid, rfl⟩ := Prod.mk.inj heq
  rw [hfound, (hplain _ hset').eq_of_id (hplain _ hset) hid]

/-- A sweep ends well, and empties a page when something is to be freed and a covered tile is stored in its tile sets. -/
theorem UpToDate.sweep (hfits : table.Fits) (h : depot.UpToDate upkeep name) (hcalm : conditions.Calm)
    (hcancelled : depot.cancelled = false)
    (hplain : ∀ set ∈ sets, set.Plain) (hregistered : ∀ set ∈ sets, depot.ledger.tileSets[set.id]? = some set)
    (hfilled : Filled table (depot.store name).sizes depot.ledger) (policy : Policy) (deficit : ByteSize) :
    ∃ swept pages depot',
      ((DepotPlan.sweeperBy Usage.record name conditions booksCell).sweep sets policy deficit).onState depot =
        (.ok swept, depot') ∧
      depot'.UpToDate upkeep name ∧ Emptying table name sets pages depot depot' ∧ swept.pages = pages.length ∧
      (0 < deficit.bytes → (∃ key ∈ (depot.store name).sizes, key.tileSet ∈ sets ∧ table.covers key = true) → pages ≠ []) := by
  obtain ⟨atlas, hatlas, hcandidates⟩ := h.candidates goesByBooks_booksCell sets
  have hentries : ∀ {entry : PageEntry}, entry ∈ policy.sort (sets.flatMap (depot.ledger.candidatesOf table)) ↔
      ∃ set ∈ sets, entry ∈ depot.ledger.candidatesOf table set := by
    intro entry
    rw [Policy.sort, List.mem_mergeSort, List.mem_flatMap]
  obtain ⟨swept, pages, depot', hrun, hafter, hemptying, hpages, hprogress⟩ := (h.with_atlas hatlas.faithful).sweepFrom
    hfits sets hcalm deficit (fun hset => by
      obtain ⟨set', hset', heq⟩ := List.mem_map.mp (Table.mem_of_getElem?_ofList hset)
      obtain ⟨hid, rfl⟩ := Prod.mk.inj heq
      exact ⟨hid, hset'⟩) hplain (policy.sort (sets.flatMap (depot.ledger.candidatesOf table))) ∅ .nothing hcancelled
    hregistered fun entry hentry _ => by
      obtain ⟨set, -, hset⟩ := hentries.mp hentry
      exact Ledger.not_emptied_of_mem_candidatesOf hfilled.sound hset
  refine ⟨swept, pages, depot', (Run.onState_bind_ok hcandidates).trans hrun, hafter,
    (Emptying.with_atlas table name sets depot atlas).append hemptying, ?_, fun hdeficit htile => ?_⟩
  · rw [hpages, Swept.nothing, Nat.zero_add]
  · obtain ⟨key, hkey, hset, hcovers⟩ := htile
    obtain ⟨level, hlevel⟩ := Option.isSome_iff_exists.mp hcovers
    obtain ⟨-, entry, hentry, -, -, hcandidate⟩ := hfilled.candidate hkey hlevel
    refine hprogress ⟨hdeficit, entry, hentries.mpr ⟨key.tileSet, hset, hcandidate⟩, Std.ExtTreeMap.not_mem_empty, ?_⟩
    rw [(hfilled.sound.page_of hentry).1]
    exact truncatable_of_covered hlevel (getElem?_byId hplain hset)

end Depot

end TileDepot
