import TileDepot.Eviction.Sweep
import TileDepot.Proofs.Filled
import TileDepot.Proofs.Policy

/-!
# Candidates of sweeps

What a sweep starts from is a function of the coverage table and the ledger: where a pyramid can be drawn, every page of the
pyramid but those that are known to be empty.
-/

namespace TileDepot

namespace Ledger

variable {table : CoverageTable} {ledger : Ledger} {set : TileSet}

/-- Whether a page is known to be empty. -/
def Emptied (ledger : Ledger) (key : PageKey) : Prop := ∃ entry, ledger.pages[key]? = some entry ∧ entry.stats.fill = 0

/-- The pages of a tile set that may hold tiles. -/
def candidatesOf (table : CoverageTable) (ledger : Ledger) (set : TileSet) : List PageEntry :=
  match table.draw set.layer set.gridset with
  | .ok pyramid => (pyramid.pages.map fun index => Page.ofIndex set.id index 0).filterMap (Sweeper.candidate? ledger)
  | .error _ => (ledger.pagesOf set.id).filter fun entry => !entry.stats.isEmpty

/-- A page with some fill is a candidate with the statistics that the ledger has of it. -/
theorem candidate?_of_some {page : Page} {entry : PageEntry} (h : ledger.pages[page.key]? = some entry)
    (hfill : entry.stats.fill ≠ 0) : Sweeper.candidate? ledger page = some entry := by
  simp only [Sweeper.candidate?, h, PageStats.isEmpty, beq_iff_eq, if_neg hfill]

/-- The pages of the pyramid are candidates but for those known to be empty. -/
theorem candidate?_eq_none_iff {page : Page} : Sweeper.candidate? ledger page = none ↔ ledger.Emptied page.key := by
  unfold Sweeper.candidate? Emptied
  cases hpage : ledger.pages[page.key]? with
  | none => simp
  | some entry => simp [PageStats.isEmpty]

/-- A candidate is the page it is for. -/
theorem key_of_candidate? (h : ∀ (key : PageKey) (entry : PageEntry), ledger.pages[key]? = some entry → entry.page.key = key)
    {page : Page} {entry : PageEntry} (hcandidate : Sweeper.candidate? ledger page = some entry) : entry.page.key = page.key := by
  unfold Sweeper.candidate? at hcandidate
  cases hpage : ledger.pages[page.key]? with
  | none =>
    rw [hpage] at hcandidate
    rw [← Option.some.inj hcandidate]
  | some stored =>
    rw [hpage] at hcandidate
    dsimp only at hcandidate
    split at hcandidate
    · cases hcandidate
    · rw [← Option.some.inj hcandidate]
      exact h _ stored hpage

/-- The candidates of a tile set that can be drawn: its pages but for those known to be empty. -/
theorem candidatesOf_of_draw {pyramid : Pyramid} (hdraw : table.draw set.layer set.gridset = .ok pyramid) :
    ledger.candidatesOf table set =
      (pyramid.pages.map fun index => Page.ofIndex set.id index 0).filterMap (Sweeper.candidate? ledger) := by
  unfold candidatesOf
  rw [hdraw]

/-- The page of a covered tile is a candidate as long as it has some fill. -/
theorem mem_candidatesOf {key : TileKey} {level : Level} {entry : PageEntry} (hlevel : table.levelOf? key = some level)
    (hentry : ledger.pages[key.pageIn level]? = some entry) (hfill : entry.stats.fill ≠ 0) :
    entry ∈ ledger.candidatesOf table key.tileSet := by
  obtain ⟨pyramid, hdraw, -, hlevels, hcontains⟩ := CoverageTable.levelOf?_eq_some_iff.mp hlevel
  rw [candidatesOf_of_draw hdraw]
  refine List.mem_filterMap.mpr ⟨key.pageAt level 0, List.mem_map.mpr ⟨_, ?_, rfl⟩, candidate?_of_some hentry hfill⟩
  obtain ⟨hcolumn, hrow⟩ := Level.pageOf_lt hcontains
  exact Pyramid.mem_pages.mpr ⟨level, hlevels, hcolumn, hrow⟩

/-- The pages listed for a tile set are pages of the ledger. -/
theorem getElem?_of_mem_pagesOf (h : ledger.Sound) {id : String} {entry : PageEntry} (hentry : entry ∈ ledger.pagesOf id) :
    ledger.pages[entry.page.key]? = some entry := by
  obtain ⟨item, hitem, rfl⟩ := List.mem_map.mp hentry
  have hmem := (List.dropWhile_suffix _).subset ((List.takeWhile_prefix _).subset hitem)
  rw [Table.mem_toList] at hmem
  rwa [(h.page_of hmem).1]

/-- No candidate is known to be empty. -/
theorem not_emptied_of_mem_candidatesOf (h : ledger.Sound) {entry : PageEntry} (hentry : entry ∈ ledger.candidatesOf table set) :
    ¬ledger.Emptied entry.page.key := by
  unfold candidatesOf at hentry
  split at hentry
  · obtain ⟨page, -, hcandidate⟩ := List.mem_filterMap.mp hentry
    rw [key_of_candidate? (fun _ _ hpage => (h.page_of hpage).1) hcandidate, ← candidate?_eq_none_iff, hcandidate]
    exact Option.some_ne_none entry
  · obtain ⟨hmem, hfill⟩ := List.mem_filter.mp hentry
    rintro ⟨stored, hstored, hempty⟩
    rw [getElem?_of_mem_pagesOf h hmem] at hstored
    obtain rfl := Option.some.inj hstored
    simp [PageStats.isEmpty, hempty] at hfill

/-- A page with an area is a candidate unless it is known to be empty. -/
theorem key_mem_candidatesOf (h : ledger.Sound) {pyramid : Pyramid} {page : Page} {area : Coverage}
    (hid : page.tileSet = set.id) (hdraw : table.draw set.layer set.gridset = .ok pyramid)
    (harea : pyramid.areaOf page.index = .ok area) (hfresh : ¬ledger.Emptied page.key) :
    page.key ∈ (ledger.candidatesOf table set).map (·.page.key) := by
  have hkey : (Page.ofIndex set.id page.index 0).key = page.key := by
    rw [← hid]
    rfl
  cases hcandidate : Sweeper.candidate? ledger (Page.ofIndex set.id page.index 0) with
  | none => exact absurd (hkey ▸ candidate?_eq_none_iff.mp hcandidate) hfresh
  | some entry =>
    obtain ⟨level, hlevel, hplace, -⟩ := Pyramid.areaOf_eq_ok_iff.mp harea
    refine List.mem_map.mpr ⟨entry, ?_, (key_of_candidate? (fun _ _ hpage => (h.page_of hpage).1) hcandidate).trans hkey⟩
    rw [candidatesOf_of_draw hdraw]
    exact List.mem_filterMap.mpr ⟨_, List.mem_map.mpr ⟨_, Pyramid.mem_pages.mpr ⟨level, hlevel, hplace⟩, rfl⟩, hcandidate⟩

end Ledger

/-- The page of a stored and covered tile is filled, its tile set is registered, and it is a candidate. -/
theorem Filled.candidate {table : CoverageTable} {sizes : Sizes} {ledger : Ledger} (h : Filled table sizes ledger)
    {key : TileKey} {level : Level} (hkey : key ∈ sizes) (hlevel : table.levelOf? key = some level) :
    key.tileSet ∈ ledger.tileSetsOf key.layer ∧ ∃ entry : PageEntry, ledger.pages[key.pageIn level]? = some entry ∧
      entry.stats.Covers (table.countOn (key.pageIn level) sizes) level.tilesPerPage ∧ 0 < entry.stats.fill ∧
      entry ∈ ledger.candidatesOf table key.tileSet := by
  have hplain := h.plain hkey
  have hpos := CoverageTable.countOn_pos hkey hlevel
  obtain ⟨entry, hentry, hcovers⟩ := h.covers hplain hlevel hpos
  have hfill := hcovers.fill_pos hpos
  refine ⟨?_, entry, hentry, hcovers, hfill, Ledger.mem_candidatesOf hlevel hentry (by omega)⟩
  obtain ⟨-, set, hset⟩ := h.sound.page_of hentry
  obtain rfl := h.sound.eq_of_id hset hplain.tileSet
  exact (Ledger.mem_tileSetsOf h.sound).mpr ⟨hset, rfl⟩

namespace Sweeper

variable {table : CoverageTable}

/-- To look for the candidates of a tile set draws at most its pyramid, and gives what table and ledger determine. -/
theorem candidatesOf_onState {books : Books} (h : books.atlas.Faithful table) (set : TileSet) :
    ∃ atlas : Atlas, Atlas.Draws table [set] books.atlas atlas ∧
      (candidatesOf set).onState books = (.ok (books.ledger.candidatesOf table set), { books with atlas }) := by
  have hdraws := Atlas.draws_pyramidOf h set
  rw [← Atlas.onState_pagesOf set 0] at hdraws
  refine ⟨_, hdraws, ?_⟩
  unfold candidatesOf Ledger.candidatesOf
  rw [Run.onState_bind_ok (Run.onState_cell_get _ _)]
  have hattempt : (Run.attempt (Books.atlasCell.run (Atlas.pagesOf set 0))).onState books =
      (.ok (table.draw set.layer set.gridset >>= fun pyramid =>
        .ok (pyramid.pages.map fun index => Page.ofIndex set.id index 0)),
          { books with atlas := ((Atlas.pagesOf set 0).onState books.atlas).2 }) := by
    rw [Run.onState_attempt, ← (Atlas.answers_pagesOf set 0 books.atlas h).1]
    rfl
  rw [Run.onState_bind_ok hattempt]
  cases table.draw set.layer set.gridset with
  | ok pyramid => rfl
  | error error => rfl

/-- Looking for candidates changes nothing but which pyramids have been drawn. -/
theorem candidates_onState (sets : List TileSet) : ∀ books : Books, books.atlas.Faithful table →
    ∃ atlas : Atlas, Atlas.Draws table sets books.atlas atlas ∧
      (candidates sets).onState books = (.ok (sets.flatMap (books.ledger.candidatesOf table)), { books with atlas }) := by
  induction sets with
  | nil =>
    intro books h
    exact ⟨books.atlas, .nil h, rfl⟩
  | cons set sets ih =>
    intro books h
    obtain ⟨atlas, hatlas, hset⟩ := candidatesOf_onState h set
    obtain ⟨atlas', hatlas', hsets⟩ := ih { books with atlas } hatlas.faithful
    refine ⟨atlas', hatlas.append hatlas', ?_⟩
    rw [candidates, Run.onState_bind_ok hset, Run.onState_bind_ok hsets]
    rfl

/-- A sweep goes through candidates that come in order as they come. -/
theorem onState_sweep_of_isChain {σ : Type} {sweeper : Sweeper σ} {sets : List TileSet} {policy : Policy}
    {entries : List PageEntry} {state looked : σ}
    (hcandidates : (sweeper.books.run (candidates sets)).onState state = (.ok entries, looked))
    (hordered : entries.IsChain fun a b => policy.order a b = .lt) (deficit : ByteSize) :
    (sweeper.sweep sets policy deficit).onState state =
      (sweeper.sweepFrom (.ofList (sets.map fun set => (set.id, set))) deficit entries ∅ .nothing).onState looked := by
  rw [sweep, Run.onState_bind_ok hcandidates, policy.sort_of_isChain hordered]

end Sweeper

end TileDepot
