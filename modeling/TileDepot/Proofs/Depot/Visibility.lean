import TileDepot.Proofs.Depot.Enforcement

/-!
# Stored tiles are visible to sweeps

A page with a covered tile on it is never taken for empty: it is in the ledger, under the tile set of the tile, with a fill
of at least the part of a full page that its tiles take. So it is among the candidates of every sweep over its tile set.
-/

namespace TileDepot

namespace Depot

variable {table : CoverageTable} {upkeep : Upkeep table} {name : String} {depot : Depot}

/-- The page that the depot has for a covered tile, and the tiles that the page takes. -/
theorem UpToDate.page_of_some (h : depot.UpToDate upkeep name) {key : TileKey} {level : Level}
    (hlevel : table.levelOf? key = some level) (now : Int) :
    ((booksCell.run (Books.atlasCell.run (Atlas.pageOf key.tileSet key.x key.y key.z now))).onState depot).1 =
        .ok (key.pageAt level now) ∧
      ((booksCell.run (Books.atlasCell.run (Atlas.tilesPerPage key.tileSet (key.pageAt level now).zoom))).onState depot).1 =
        .ok level.tilesPerPage := by
  obtain ⟨_, -, hpage⟩ := h.ask_atlas goesByBooks_booksCell (Atlas.answers_pageOf_of_some hlevel now)
  obtain ⟨_, -, hslots⟩ := h.ask_atlas goesByBooks_booksCell (Atlas.answers_tilesPerPage_of_some hlevel)
  exact ⟨congrArg Prod.fst hpage, congrArg Prod.fst hslots⟩

/-- After any requests, in a depot that started empty with its accountant listening, and whose pages words have room for, every
covered tile that is stored has its page in the ledger, under the tile set of the tile, which is registered. The fill of the
page covers the tiles stored on it, at least one, and the page is a candidate of every sweep over the tile set. -/
theorem stored_tile_visible (hfits : table.Fits) (name : String) (clock : Clock) (accountant : Accountant)
    (requests : List Request) (hrequests : ∀ request ∈ requests, request.Admissible table) :
    let depot := (start name clock table accountant).serve name requests
    ∀ key ∈ (depot.store name).tiles, table.covers key = true →
      ∃ (page : Page) (slots : Nat) (entry : PageEntry),
        ((booksCell.run (Books.atlasCell.run (Atlas.pageOf key.tileSet key.x key.y key.z depot.clock.minutes))).onState
          depot).1 = .ok page ∧
        ((booksCell.run (Books.atlasCell.run (Atlas.tilesPerPage key.tileSet page.zoom))).onState depot).1 = .ok slots ∧
        page.tileSet = key.tileSet.id ∧ key.tileSet ∈ depot.ledger.tileSetsOf key.layer ∧
        depot.ledger.pages[page.key]? = some entry ∧
        1 ≤ (table.tilesOf (table.pageKeyOf? · = some page.key) (depot.store name)).length ∧
        (table.tilesOf (table.pageKeyOf? · = some page.key) (depot.store name)).length * fillScale ≤
          entry.stats.fill * slots ∧
        0 < entry.stats.fill ∧
        ∀ sets : List TileSet, key.tileSet ∈ sets →
          ∃ entries, ((booksCell.run (Sweeper.candidates sets)).onState depot).1 = .ok entries ∧ entry ∈ entries := by
  intro depot key hkey hcovers
  have hstart := upToDate_start (Upkeep.ofUpheld accountant (Filled.upheld hfits accountant.rounded)) name clock
    rfl (Filled.empty table)
  obtain ⟨-, hafter⟩ := hstart.serve (Upkeep.blind_record _) requests hrequests fun _ => Filled.without_tiles
  have hfilled : Filled table (depot.store name).sizes depot.ledger := hafter.holds
  obtain ⟨level, hlevel⟩ := Option.isSome_iff_exists.mp hcovers
  have hsize : key ∈ (depot.store name).sizes := Resident.mem_sizes.mpr hkey
  have hpos := CoverageTable.countOn_pos hsize hlevel
  obtain ⟨hset, entry, hentry, hfill, hfillPos, hcandidate⟩ := hfilled.candidate hsize hlevel
  obtain ⟨hpage, hslots⟩ := hafter.page_of_some hlevel depot.clock.minutes
  have hcount : (table.tilesOf (table.pageKeyOf? · = some (key.pageIn level)) (depot.store name)).length =
      table.countOn (key.pageIn level) (depot.store name).sizes := by
    rw [CoverageTable.length_tilesOf]
    refine Table.weigh_congr fun other size _ => if_congr (and_iff_left_of_imp fun hother => ?_) rfl rfl
    obtain ⟨otherLevel, hotherLevel, -⟩ := CoverageTable.pageKeyOf?_eq_some_iff.mp hother
    exact Option.isSome_iff_exists.mpr ⟨otherLevel, hotherLevel⟩
  refine ⟨key.pageAt level depot.clock.minutes, level.tilesPerPage, entry, hpage, hslots, rfl, hset, hentry, ?_, ?_,
    hfillPos, fun sets hsets => ?_⟩
  · rw [TileKey.key_pageAt]
    omega
  · rw [TileKey.key_pageAt, hcount]
    exact hfill
  · obtain ⟨_, -, hcandidates⟩ := hafter.candidates goesByBooks_booksCell sets
    exact ⟨_, congrArg Prod.fst hcandidates, List.mem_flatMap.mpr ⟨key.tileSet, hsets, hcandidate⟩⟩

/-- A tile is put and asked for, another one is put and deleted: the first is on a page that is a candidate. -/
theorem stored_tile_visible_after_delete :
    let key := (Sample.tile "roads" 1 2 5).key
    let depot := (start "tiles" (.atMinutes 5) Sample.table (Sample.accountant "roads" 100)).serve "tiles"
      [.call (.put (Sample.tile "roads" 1 2 5)), .hits key 3, .call (.put (Sample.tile "roads" 4 2 5)),
        .call (.delete (Sample.tile "roads" 4 2 5).key)]
    ∃ (page : Page) (entry : PageEntry) (entries : List PageEntry), depot.ledger.pages[page.key]? = some entry ∧
      0 < entry.stats.fill ∧
      ((booksCell.run (Sweeper.candidates [key.tileSet])).onState depot).1 = .ok entries ∧ entry ∈ entries := by
  intro key depot
  obtain ⟨page, slots, entry, -, -, -, -, hentry, -, -, hfill, hcandidate⟩ :=
    stored_tile_visible Sample.fits_table "tiles" (.atMinutes 5) (Sample.accountant "roads" 100) _ (fun request hrequest => by
      simp only [List.mem_cons, List.not_mem_nil, or_false] at hrequest
      rcases hrequest with rfl | rfl | rfl | rfl
      · exact ⟨by decide, by decide, by decide⟩
      · exact ⟨by decide, by decide, by decide⟩
      · exact ⟨by decide, by decide, by decide⟩
      · trivial) key (by decide +kernel : key ∈ (depot.store "tiles").tiles) (by decide +kernel)
  obtain ⟨entries, hentries, hmem⟩ := hcandidate [key.tileSet] List.mem_cons_self
  exact ⟨page, entry, entries, hentry, hfill, hentries, hmem⟩

/-- A covered tile is stored, but its page is taken for empty: no sweep over its tile set will come to it. -/
def Hides (depot : Depot) (table : CoverageTable) (key : TileKey) (pageKey : PageKey) : Prop :=
  key ∈ (depot.store "tiles").tiles ∧ table.covers key = true ∧
    ((booksCell.run (Books.atlasCell.run (Atlas.pageOf key.tileSet key.x key.y key.z 5))).onState depot).1.toOption.map
      Page.key = some pageKey ∧
    (depot.ledger.pages[pageKey]?.map (·.stats.fill)) = some 0 ∧
    (((booksCell.run (Sweeper.candidates [key.tileSet])).onState depot).1.toOption.map
      fun entries => entries.any (·.page.key = pageKey)) = some false

instance (depot : Depot) (table : CoverageTable) (key : TileKey) (pageKey : PageKey) :
    Decidable (depot.Hides table key pageKey) := inferInstanceAs (Decidable (_ ∧ _))

/-- A page is emptied, and a tile is put where its layer covers nothing. Once the layer is renamed to one that covers more,
the tile lies on a page that is taken for empty. The same comes of emptying the last page of a level that reaches beyond the
largest word: nothing is deleted for it. -/
theorem stored_tile_hidden :
    let renamed := (start "tiles" (.atMinutes 5) Sample.unequalTable (Sample.accountant "streets" 100)).serve "tiles"
      [.call (.put (Sample.tile "roads" 9 0 5)), .call (.delete (Sample.tile "roads" 9 0 5).key),
        .call (.put (Sample.tile "roads" 18 0 5)), .call (.rename "roads" "streets")]
    let emptied := Sample.farDepot.serve "tiles" [.enforce .calm "lanes"]
    renamed.Hides Sample.unequalTable (Sample.tile "streets" 18 0 5).key ⟨"streets#world#png", 3, 0, 9⟩ ∧
      emptied.Hides Sample.farTable Sample.farTile.key ⟨"lanes#world#png", 3, 0, 34⟩ := by
  intro renamed emptied
  have hemptied : emptied = Sample.settleLanes.2 := congrArg Prod.snd Sample.onState_enforce_lanes
  refine ⟨by decide +kernel, ?_⟩
  rw [hemptied]
  decide +kernel

end Depot

end TileDepot
