import TileDepot.Proofs.Depot.Emptying
import TileDepot.Proofs.Depot.Reachable
import TileDepot.Proofs.Partition

/-!
# One page truncated

Truncating a page removes the covered tiles of the page and no others. The accountant hears of them one by one, and takes each
of them off the usage of its tile set, which it never takes below zero; then the page is recorded as empty. Usage can fall short
of the tiles of a page only where a layer has been renamed to one with other coverages.
-/

namespace TileDepot

/-- The covered tiles of a page of a tile set. -/
def CoverageTable.tilesOn (table : CoverageTable) (set : TileSet) (page : Page) (store : Resident) : List (TileKey × Payload) :=
  table.tilesOf (fun key => key.tileSet = set ∧ table.pageKeyOf? key = some page.key) store

namespace Ledger

/-! ## Tiles of a page deleted -/

/-- What is recorded when tiles of one page go: their bytes and their number are taken off the usage of the tile set, but not below
zero, and nothing changes in any other usage or page. -/
structure Loses (id : String) (pageKey : PageKey) (bytes tiles : Int) (ledger ledger' : Ledger) : Prop where
  used : (ledger'.usageOf id).used.bytes = max ((ledger.usageOf id).used.bytes - bytes) 0
  tiles : (ledger'.usageOf id).tiles = max ((ledger.usageOf id).tiles - tiles) 0
  usage : ∀ other, other ≠ id → ledger'.usage[other]? = ledger.usage[other]?
  pages : ∀ other, other ≠ pageKey → ledger'.pages[other]? = ledger.pages[other]?

variable {table : CoverageTable} {ledger ledger' : Ledger} {set : TileSet} {pageKey : PageKey} {now : Int}

/-- In a ledger that is intact no usage is below zero. -/
theorem Intact.usageOf_nonneg (h : ledger.Intact) (id : String) :
    0 ≤ (ledger.usageOf id).used.bytes ∧ 0 ≤ (ledger.usageOf id).tiles := by
  rw [usageOf, Std.ExtTreeMap.getD_eq_getD_getElem?]
  cases husage : ledger.usage[id]? with
  | none => exact ⟨Int.le_refl 0, Int.le_refl 0⟩
  | some usage => exact h.usage_allowed husage

/-- A ledger that stays what it is loses nothing. -/
theorem Intact.loses_nothing (h : ledger.Intact) (id : String) (pageKey : PageKey) : Loses id pageKey 0 0 ledger ledger := by
  obtain ⟨hused, htiles⟩ := h.usageOf_nonneg id
  exact ⟨by omega, by omega, fun _ _ => rfl, fun _ _ => rfl⟩

/-- What is lost in two steps adds up, as long as the second takes something away. -/
theorem Loses.trans {id : String} {bytes bytes' tiles tiles' : Int} {between : Ledger}
    (h : Loses id pageKey bytes tiles ledger between)
    (h' : Loses id pageKey bytes' tiles' between ledger') (hbytes : 0 ≤ bytes') (htiles : 0 ≤ tiles') :
    Loses id pageKey (bytes + bytes') (tiles + tiles') ledger ledger' where
  used := by
    rw [h'.used, h.used]
    omega
  tiles := by
    rw [h'.tiles, h.tiles]
    omega
  usage other hother := (h'.usage other hother).trans (h.usage other hother)
  pages other hother := (h'.pages other hother).trans (h.pages other hother)

/-- A tile of a page deleted: it is taken off if it is covered. -/
theorem Intact.loses_tile (h : ledger.Intact) (rounded : Nat → Nat) (now : Int) {tile : TileKey}
    (hpage : ∀ level, table.levelOf? tile = some level → tile.pageIn level = pageKey) (size : Nat) :
    Loses tile.tileSet.id pageKey (if table.covers tile = true then rounded size else 0)
      (if table.covers tile = true then 1 else 0) ledger (ledger.heard table rounded (.deleted tile size) now) := by
  change Loses _ _ _ _ _ (ledger.recorded table tile (-1) (-(rounded size : Int)) now)
  unfold Ledger.recorded CoverageTable.covers
  cases hlevel : table.levelOf? tile with
  | none => exact h.loses_nothing _ pageKey
  | some level =>
    refine ⟨?_, ?_, fun other hother => ?_, fun other hother => ?_⟩
    · rw [usageOf_addTilesBy, if_pos rfl, Usage.used_record, Option.isSome_some, if_pos rfl]
      rfl
    · rw [usageOf_addTilesBy, if_pos rfl, Option.isSome_some, if_pos rfl]
      rfl
    · rw [usage_addTilesBy, if_neg hother.symm]
    · rw [pages_addTilesBy, TileKey.key_pageAt, hpage level hlevel, if_neg hother.symm]

/-- Tiles of a page deleted one after the other: the covered ones are taken off. -/
theorem Intact.loses_tiles (rounded : Nat → Nat) (now : Int) : ∀ (gone : List (TileKey × Payload)) {ledger : Ledger},
    ledger.Intact → (∀ entry ∈ gone, entry.1.tileSet = set ∧
      ∀ level, table.levelOf? entry.1 = some level → entry.1.pageIn level = pageKey) →
    Loses set.id pageKey (((gone.filter fun entry => table.covers entry.1).map fun entry => (rounded entry.2.size : Int)).sum)
      (gone.filter fun entry => table.covers entry.1).length ledger
      ((gone.map fun entry => Event.deleted entry.1 entry.2.size).foldl
        (fun ledger event => ledger.heard table rounded event now) ledger) := by
  intro gone
  induction gone with
  | nil => exact fun h _ => h.loses_nothing set.id pageKey
  | cons entry gone ih =>
    intro ledger h hgone
    obtain ⟨rfl, hpage⟩ := hgone entry List.mem_cons_self
    have hfirst := h.loses_tile rounded now hpage entry.2.size
    have hrest := ih (h.recorded table entry.1 (-1) (-(rounded entry.2.size : Int)) now)
      fun other hother => hgone other (List.mem_cons_of_mem entry hother)
    have hnonneg : (0 : Int) ≤
        ((gone.filter fun entry => table.covers entry.1).map fun entry => (rounded entry.2.size : Int)).sum :=
      List.sum_nonneg fun amount hamount => by
        obtain ⟨other, -, rfl⟩ := List.mem_map.mp hamount
        exact Int.natCast_nonneg _
    have hboth := hfirst.trans hrest hnonneg (Int.natCast_nonneg _)
    rw [List.filter_cons]
    by_cases hcovers : table.covers entry.1 = true
    · rw [if_pos hcovers, if_pos hcovers] at hboth
      rw [if_pos hcovers, List.map_cons, List.sum_cons, List.length_cons, Nat.cast_succ, Int.add_comm _ 1]
      exact hboth
    · rw [if_neg hcovers, if_neg hcovers, Int.zero_add, Int.zero_add] at hboth
      rw [if_neg hcovers]
      exact hboth

/-- Recording a page as empty changes no usage and no other page. -/
theorem Loses.setTruncated {page : Page} {bytes tiles : Int}
    (h : Loses set.id page.key bytes tiles ledger ledger') (now : Int) :
    Loses set.id page.key bytes tiles ledger (ledger'.setTruncated set page now) where
  used := h.used
  tiles := h.tiles
  usage := h.usage
  pages other hother := by
    rw [Ledger.setTruncated, pages_changeStats, if_neg hother.symm]
    exact h.pages other hother

end Ledger

namespace CoverageTable

variable {table : CoverageTable} {set : TileSet} {page : Page} {pyramid : Pyramid} {area : Coverage}

/-- Of the covered tiles, those of a page and no others lie in the range that is deleted for it. -/
theorem contains_iff_of_covers (hfits : table.Fits) (hset : set.Plain) (hid : page.tileSet = set.id)
    (hdraw : table.draw set.layer set.gridset = .ok pyramid) (harea : pyramid.areaOf page.index = .ok area) {key : TileKey}
    (hcovers : table.covers key = true) :
    (TileRange.ofPage set area).contains key = true ↔ key.tileSet = set ∧ table.pageKeyOf? key = some page.key := by
  obtain ⟨level, hlevel⟩ := Option.isSome_iff_exists.mp hcovers
  have hkey : table.pageKeyOf? key = some page.key ↔ key.pageIn level = page.key := by
    rw [pageKeyOf?, hlevel, Option.map_some, Option.some.injEq]
  constructor
  · intro hcontains
    obtain rfl := tileSet_of_contains hset hcontains
    exact ⟨rfl, hkey.mpr ((contains_ofPage_iff hfits hid hdraw harea hlevel).mp hcontains)⟩
  · rintro ⟨rfl, hpage⟩
    exact (contains_ofPage_iff hfits hid hdraw harea hlevel).mpr (hkey.mp hpage)

/-- The covered tiles that are deleted for a page are those of the page. -/
theorem filter_doomed (hfits : table.Fits) (hset : set.Plain) (hid : page.tileSet = set.id)
    (hdraw : table.draw set.layer set.gridset = .ok pyramid) (harea : pyramid.areaOf page.index = .ok area) (store : Resident) :
    (store.tiles.filter fun key _ => (TileRange.ofPage set area).contains key).toList.filter (fun entry => table.covers entry.1) =
      table.tilesOn set page store := by
  rw [Std.ExtTreeMap.toList_filter, List.filter_filter, tilesOn, tilesOf]
  refine List.filter_congr fun entry _ => ?_
  cases hcovers : table.covers entry.1 with
  | false => simp
  | true =>
    have hiff := contains_iff_of_covers hfits hset hid hdraw harea hcovers
    simp [← hiff]

/-- The tiles of a page add up to no more than those of its tile set. -/
theorem sum_tilesOn_le (table : CoverageTable) (set : TileSet) (page : Page) {amount : Nat → Int}
    (hamount : ∀ size, 0 ≤ amount size) (store : Resident) :
    ((table.tilesOn set page store).map fun entry => amount entry.2.size).sum ≤ table.sumOf amount set.id store.sizes := by
  rw [tilesOn, sum_tilesOf, sumOf]
  refine Table.weigh_le fun key size _ => ?_
  split
  · rename_i hkey
    rw [if_pos ⟨congrArg TileSet.id hkey.1.1, hkey.2⟩]
  · split
    · exact hamount size
    · exact Int.le_refl 0

end CoverageTable

namespace Depot

variable {table : CoverageTable} {name : String} {clock : Clock} {accountant : Accountant} {depot depot' : Depot}
  {books : Cell Depot Books} {conditions : Conditions} {set : TileSet} {page : Page} {pyramid : Pyramid} {area : Coverage}

/-- What the truncation of a page does to a depot. The covered tiles of the page are gone, and no others; they are taken off the
usage of their tile set, but not below zero, and off no other usage; the page is recorded as empty, and no other page changes. -/
structure Cleared (table : CoverageTable) (rounded : Nat → Nat) (name : String) (set : TileSet) (page : Page)
    (depot depot' : Depot) : Prop where
  tiles : ∀ key : TileKey, table.covers key = true → (depot'.store name).tiles[key]? =
    if key.tileSet = set ∧ table.pageKeyOf? key = some page.key then none else (depot.store name).tiles[key]?
  loses : Ledger.Loses set.id page.key
    ((table.tilesOn set page (depot.store name)).map fun entry => (rounded entry.2.size : Int)).sum
    (table.tilesOn set page (depot.store name)).length depot.ledger depot'.ledger
  emptied : depot'.ledger.Emptied page.key

/-- Once a page was truncated and recorded as empty, it is cleared of all its tiles, and of no others. -/
theorem Truncated.cleared
    (h : depot.Truncated (.ofUpheld accountant (Upright.upheld table accountant.rounded)) name conditions (.ofPage set area) depot')
    (hfits : table.Fits) (hintact : depot.ledger.Intact) (hset : set.Plain) (hid : page.tileSet = set.id)
    (hdraw : table.draw set.layer set.gridset = .ok pyramid) (harea : pyramid.areaOf page.index = .ok area) :
    Cleared table accountant.rounded name set page depot (depot'.emptied set page) where
  tiles key hcovers := by
    have hiff := CoverageTable.contains_iff_of_covers hfits hset hid hdraw harea hcovers
    change (depot'.store name).tiles[key]? = _
    rw [h.tiles, Std.ExtTreeMap.getElem?_filter', if_congr hiff.symm rfl rfl]
    cases (TileRange.ofPage set area).contains key <;> cases (depot.store name).tiles[key]? <;> rfl
  loses := by
    have hgone : ∀ entry ∈ ((depot.store name).tiles.filter fun key _ => (TileRange.ofPage set area).contains key).toList,
        entry.1.tileSet = set ∧ ∀ level, table.levelOf? entry.1 = some level → entry.1.pageIn level = page.key := by
      intro entry hentry
      rw [Table.mem_toList, Std.ExtTreeMap.getElem?_filter', Option.filter_eq_some_iff] at hentry
      obtain rfl := CoverageTable.tileSet_of_contains hset hentry.2
      exact ⟨rfl, fun level hlevel => (CoverageTable.contains_ofPage_iff hfits hid hdraw harea hlevel).mp hentry.2⟩
    have hloses := Ledger.Intact.loses_tiles accountant.rounded depot.clock.minutes _ hintact hgone
    rw [CoverageTable.filter_doomed hfits hset hid hdraw harea] at hloses
    refine Ledger.Loses.setTruncated ?_ _
    rw [h.heard.ledger]
    exact hloses
  emptied := Ledger.emptied_setTruncated _ _ _ _

/-- Truncating a page of the pyramid of a tile set, in any state that is reached, where words have room for the pages: unless it
is refused it succeeds, and then the covered tiles of the page are gone and taken off the usage, and nothing else is. Where
layers have been renamed only to layers with the same coverages, no part of what is taken off is lost. -/
theorem truncated_page_cleared (hfits : table.Fits) (h : Reached Request.Plain name clock table accountant depot)
    (hbooks : GoesByBooks books) (conditions : Conditions) (hset : set.Plain) {entry : PageEntry}
    (hid : entry.page.tileSet = set.id)
    (hdraw : table.draw set.layer set.gridset = .ok pyramid) (hpage : entry.page.index ∈ pyramid.pages) :
    let truncated := (((DepotPlan.single name conditions).sweeper books cancelledCell).truncatePage set entry).onState depot
    (conditions.failAt.contains (depot.truncated.length + 1) = false → ∃ freed, truncated.1 = .ok freed) ∧
      ∀ freed, truncated.1 = .ok freed →
        Cleared table accountant.rounded name set entry.page depot truncated.2 ∧
        (Reached (Request.Admissible table) name clock table accountant depot →
          (truncated.2.ledger.usageOf set.id).used.bytes = (depot.ledger.usageOf set.id).used.bytes -
            ((table.tilesOn set entry.page (depot.store name)).map fun entry => (accountant.rounded entry.2.size : Int)).sum ∧
          (truncated.2.ledger.usageOf set.id).tiles = (depot.ledger.usageOf set.id).tiles -
            (table.tilesOn set entry.page (depot.store name)).length) := by
  intro truncated
  obtain ⟨area, harea⟩ := Pyramid.mem_pages_iff_areaOf.mp hpage
  rcases h.upright.truncatePage_of_area hbooks conditions hdraw harea with
    ⟨hfail, error, depot', hrun, -⟩ | ⟨freed, depot', hrun, atlas, htruncated⟩
  · have hrecord := hrun Usage.record
    rw [DepotPlan.sweeperBy_record] at hrecord
    rw [show truncated = _ from hrecord]
    exact ⟨fun hcount => absurd (hcount.symm.trans hfail) Bool.false_ne_true, fun _ h => nomatch h⟩
  · have hrecord := hrun Usage.record (Upkeep.blind_record _)
    rw [DepotPlan.sweeperBy_record] at hrecord
    rw [show truncated = _ from hrecord]
    have hcharted := htruncated.cleared hfits h.upright.holds.intact hset hid hdraw harea
    have hcleared : Cleared table accountant.rounded name set entry.page depot (depot'.emptied set entry.page) :=
      ⟨hcharted.tiles, hcharted.loses, hcharted.emptied⟩
    refine ⟨fun _ => ⟨freed, rfl⟩, fun _ _ => ⟨hcleared, fun hsame => ?_⟩⟩
    have hample := hsame.ample.holds
    have hbytes := table.sum_tilesOn_le set entry.page (fun size => Int.natCast_nonneg (accountant.rounded size)) (depot.store name)
    have htiles := table.sum_tilesOn_le set entry.page (fun _ => Int.one_nonneg) (depot.store name)
    have hused := hample.used set.id
    have hcounted := hample.tiles set.id
    rw [List.map_const', List.sum_replicate, nsmul_eq_mul, mul_one] at htiles
    rw [hcleared.loses.used, hcleared.loses.tiles]
    exact ⟨by omega, by omega⟩

end Depot

namespace Sample

/-- Two layers of one tile each, side by side. -/
def besideTable : CoverageTable := ⟨.ofList [("roads", row 1), ("streets", rowFrom 1 1)]⟩

/-- The tile set of the streets. -/
def streets : TileSet := .of "streets" "world" "png" none

/-- A page of the streets in the first row of pages. -/
def streetPage (column : Nat) : PageEntry := ⟨.ofIndex streets.id ⟨column, 0, 3⟩ 5, .fresh 5⟩

/-- A depot after some requests, where the streets may use little. -/
def streetDepot (table : CoverageTable) (requests : List Request) : Depot :=
  (Depot.start "tiles" (.atMinutes 5) table (accountant "streets" 100)).serve "tiles" requests

/-- A page truncated. -/
def truncatedPage (set : TileSet) (entry : PageEntry) (depot : Depot) : Except Error Int × Depot :=
  (((DepotPlan.single "tiles" .calm).sweeper Depot.booksCell Depot.cancelledCell).truncatePage set entry).onState depot

/-- A page of the streets truncated. -/
def truncated (depot : Depot) (column : Nat) : Except Error Int × Depot := truncatedPage streets (streetPage column) depot

/-- The last page of the lanes, which reaches beyond the largest word. -/
def farPage : PageEntry := ⟨.ofIndex lanes.id ⟨34, 0, 3⟩ 5, .fresh 5⟩

/-- Three tiles of streets on two pages. -/
def threeTiles : Depot := streetDepot unequalTable
  [.call (.put (tile "streets" 18 0 5)), .call (.put (tile "streets" 19 0 5)), .call (.put (tile "streets" 20 0 5))]

/-- A tile beside the only tile of the roads that is covered, with the roads renamed to streets. -/
def tileBeside : Depot := streetDepot besideTable [.call (.put (tile "roads" 1 0 5)), .call (.rename "roads" "streets")]

/-- The names of the sample streets are plain. -/
theorem plain_streets : streets.Plain := ⟨rfl, by decide, by decide, by decide⟩

/-- A page is one of a pyramid that is drawn if a look at the pyramid says so. -/
theorem page_inside {table : CoverageTable} {set : TileSet} {entry : PageEntry} (h : (table.draw set.layer set.gridset).toOption.any
    (fun pyramid => decide (entry.page.index ∈ pyramid.pages)) = true) :
    ∃ pyramid, table.draw set.layer set.gridset = .ok pyramid ∧ entry.page.index ∈ pyramid.pages := by
  cases hdraw : table.draw set.layer set.gridset with
  | error error =>
    rw [hdraw] at h
    cases h
  | ok pyramid =>
    rw [hdraw] at h
    exact ⟨pyramid, rfl, of_decide_eq_true h⟩

end Sample

namespace Depot

/-- Three tiles of streets on two pages: once the first page is truncated, one block is in use. -/
theorem truncated_page_cleared_streets :
    (∃ freed, (Sample.truncated Sample.threeTiles 9).1 = .ok freed) ∧
      Cleared Sample.unequalTable (Sample.accountant "streets" 100).rounded "tiles" Sample.streets (Sample.streetPage 9).page
        Sample.threeTiles (Sample.truncated Sample.threeTiles 9).2 ∧
      (Sample.threeTiles.ledger.usageOf Sample.streets.id).used.bytes = 12288 ∧
      ((Sample.truncated Sample.threeTiles 9).2.ledger.usageOf Sample.streets.id).used.bytes = 4096 := by
  have hreached : Reached Request.Plain "tiles" (.atMinutes 5) Sample.unequalTable (Sample.accountant "streets" 100)
      Sample.threeTiles := by
    refine Reached.start.serve _ fun request hrequest => ?_
    simp only [List.mem_cons, List.not_mem_nil, or_false] at hrequest
    rcases hrequest with rfl | rfl | rfl <;> exact ⟨by decide, by decide, by decide⟩
  have hinside : ∃ pyramid, Sample.unequalTable.draw Sample.streets.layer Sample.streets.gridset = .ok pyramid ∧
      (Sample.streetPage 9).page.index ∈ pyramid.pages := Sample.page_inside (by decide +kernel)
  have hid : (Sample.streetPage 9).page.tileSet = Sample.streets.id := rfl
  obtain ⟨pyramid, hdraw, hpage⟩ := hinside
  obtain ⟨hsucceeds, hclears⟩ := truncated_page_cleared Sample.fits_unequalTable hreached goesByBooks_booksCell .calm
    Sample.plain_streets hid hdraw hpage
  obtain ⟨freed, hfreed⟩ := hsucceeds rfl
  exact ⟨⟨freed, hfreed⟩, (hclears freed hfreed).1, by decide +kernel, by decide +kernel⟩

/-- A tile comes to be covered when its layer is renamed: truncating its page removes the tile, but there is no usage to take it
off. And truncating a page that reaches beyond the largest word succeeds, but the tile on it stays. -/
theorem page_cleared_in_part :
    Reached Request.Plain "tiles" (.atMinutes 5) Sample.besideTable (Sample.accountant "streets" 100) Sample.tileBeside ∧
      (∃ pyramid, Sample.besideTable.draw Sample.streets.layer Sample.streets.gridset = .ok pyramid ∧
        (Sample.streetPage 0).page.index ∈ pyramid.pages) ∧
      (∃ freed, (Sample.truncated Sample.tileBeside 0).1 = .ok freed) ∧
      ((Sample.truncated Sample.tileBeside 0).2.ledger.usageOf Sample.streets.id).used.bytes ≠
        (Sample.tileBeside.ledger.usageOf Sample.streets.id).used.bytes -
          ((Sample.besideTable.tilesOn Sample.streets (Sample.streetPage 0).page (Sample.tileBeside.store "tiles")).map
            fun entry => ((Sample.accountant "streets" 100).rounded entry.2.size : Int)).sum ∧
      ((Sample.truncated Sample.tileBeside 0).2.ledger.usageOf Sample.streets.id).tiles ≠
        (Sample.tileBeside.ledger.usageOf Sample.streets.id).tiles -
          (Sample.besideTable.tilesOn Sample.streets (Sample.streetPage 0).page (Sample.tileBeside.store "tiles")).length ∧
      Reached (Request.Admissible Sample.farTable) "tiles" (.atMinutes 5) Sample.farTable (Sample.accountant "lanes" 100)
        Sample.farDepot ∧
      (∃ pyramid, Sample.farTable.draw Sample.lanes.layer Sample.lanes.gridset = .ok pyramid ∧
        Sample.farPage.page.index ∈ pyramid.pages) ∧
      (∃ freed, (Sample.truncatedPage Sample.lanes Sample.farPage Sample.farDepot).1 = .ok freed) ∧
      Sample.farTile.key.tileSet = Sample.lanes ∧
      Sample.farTable.pageKeyOf? Sample.farTile.key = some Sample.farPage.page.key ∧
      Sample.farTile.key ∈ ((Sample.truncatedPage Sample.lanes Sample.farPage Sample.farDepot).2.store "tiles").tiles := by
  have hreached : Reached Request.Plain "tiles" (.atMinutes 5) Sample.besideTable (Sample.accountant "streets" 100)
      Sample.tileBeside := by
    refine Reached.start.serve _ fun request hrequest => ?_
    simp only [List.mem_cons, List.not_mem_nil, or_false] at hrequest
    rcases hrequest with rfl | rfl
    · exact ⟨by decide, by decide, by decide⟩
    · exact (by decide : PlainName "streets")
  have hfar : Reached (Request.Admissible Sample.farTable) "tiles" (.atMinutes 5) Sample.farTable
      (Sample.accountant "lanes" 100) Sample.farDepot := by
    refine Reached.start.serve _ fun request hrequest => ?_
    rw [List.mem_singleton.mp hrequest]
    exact ⟨by decide, by decide, by decide⟩
  have hsucceeds : (Sample.truncated Sample.tileBeside 0).1.isOk = true := by decide +kernel
  have hsucceedsFar : (Sample.truncatedPage Sample.lanes Sample.farPage Sample.farDepot).1.isOk = true := by decide +kernel
  exact ⟨hreached, Sample.page_inside (by decide +kernel), ⟨_, congrArg Prod.fst (Run.onState_of_isOk hsucceeds)⟩,
    by decide +kernel, by decide +kernel, hfar, Sample.page_inside (by decide +kernel),
    ⟨_, congrArg Prod.fst (Run.onState_of_isOk hsucceedsFar)⟩, rfl, by decide +kernel, by decide +kernel⟩

end Depot

end TileDepot
