import TileDepot.Page.Atlas
import TileDepot.Proofs.Grid
import TileDepot.Proofs.TileSet
import TileDepot.Tile.Range

/-!
# Covered tiles

A coverage table draws a pyramid for a layer in a gridset, and the pyramid says of every tile whether it is covered and on
which page it lies. All of this is a function of the table alone. The tiles of a page are those in the range that a sweep
deletes for it, as long as words have room for the level, and there are no more of them than a full page has.
-/

namespace TileDepot

/-- The key of the page of a tile in a level. -/
def TileKey.pageIn (key : TileKey) (level : Level) : PageKey :=
  ⟨key.tileSet.id, key.z.toNat, (level.pageOf key.x key.y).2, (level.pageOf key.x key.y).1⟩

namespace CoverageTable

/-- The pyramid that the table gives for a layer in a gridset. -/
def draw (table : CoverageTable) (layer gridset : String) : Except Error Pyramid := do
  Pyramid.ofCoverages (← table.areas layer gridset)

/-- The level at the zoom of a tile, if it contains the tile. -/
def levelOf? (table : CoverageTable) (key : TileKey) : Option Level :=
  match table.draw key.layer key.gridset with
  | .error _ => none
  | .ok pyramid => if key.z < 0 then none else pyramid.levels[key.z.toNat]?.filter (·.contains key.x key.y)

/-- Whether a tile lies in the coverage of its layer in its gridset. -/
def covers (table : CoverageTable) (key : TileKey) : Bool := (table.levelOf? key).isSome

/-- The key of the page of a tile, if the tile is covered. -/
def pageKeyOf? (table : CoverageTable) (key : TileKey) : Option PageKey := (table.levelOf? key).map key.pageIn

/-- A table of which words have room for every pyramid. -/
def Fits (table : CoverageTable) : Prop :=
  ∀ (layer gridset : String) (pyramid : Pyramid), table.draw layer gridset = .ok pyramid → pyramid.Fits

/-- Two layers for which the table gives the same coverages. -/
def SameCoverage (table : CoverageTable) (layer target : String) : Prop :=
  ∀ gridset, (table.areas layer gridset).toOption = (table.areas target gridset).toOption

variable {table : CoverageTable} {key : TileKey}

/-! ## What is covered -/

/-- A tile is covered by the level of its zoom in the pyramid of its layer and gridset, if it lies in that level. -/
theorem levelOf?_eq_some_iff {level : Level} :
    table.levelOf? key = some level ↔ ∃ pyramid, table.draw key.layer key.gridset = .ok pyramid ∧ 0 ≤ key.z ∧
      pyramid.levels[key.z.toNat]? = some level ∧ level.contains key.x key.y = true := by
  unfold levelOf?
  cases hdraw : table.draw key.layer key.gridset with
  | error error => simp
  | ok pyramid =>
    by_cases hz : key.z < 0
    · simp [hz]
    · simp [hz, Int.not_lt.mp hz, Option.filter_eq_some_iff]

/-- A pyramid is drawn of the rectangles that are published of a layer in a gridset. -/
theorem draw_eq_ok_iff {layer gridset : String} {pyramid : Pyramid} :
    table.draw layer gridset = .ok pyramid ↔
      ∃ areas, table.areas layer gridset = .ok areas ∧ Pyramid.ofCoverages areas = .ok pyramid := by
  unfold draw
  cases table.areas layer gridset with
  | error error => simp [bind, Except.bind]
  | ok areas => simp [bind, Except.bind]

/-- The rectangles of a layer in a gridset are found if both are published. -/
theorem areas_eq_ok_iff {layer gridset : String} {areas : List Coverage} :
    table.areas layer gridset = .ok areas ↔
      ∃ coverage, table.layers[layer]? = some coverage ∧ coverage.gridsets[gridset]? = some areas := by
  unfold CoverageTable.areas find
  cases table.layers[layer]? with
  | none => simp [bind, Except.bind]
  | some coverage =>
    cases hgridset : coverage.gridsets[gridset]? <;>
      simp [bind, Except.bind, hgridset, pure, Except.pure, throw, throwThe, MonadExceptOf.throw]

/-- No tile beyond the zooms of 32 bits is covered. -/
theorem zoom_le_of_levelOf? {level : Level} (h : table.levelOf? key = some level) : key.z ≤ Binary64.maxUInt32 := by
  obtain ⟨pyramid, hdraw, hz, hlevel, -⟩ := levelOf?_eq_some_iff.mp h
  obtain ⟨areas, -, hpyramid⟩ := draw_eq_ok_iff.mp hdraw
  have := Pyramid.zoom_le_of_level hpyramid hlevel
  omega

/-- A tile lies on a page if it is covered by a level in which that is its page. -/
theorem pageKeyOf?_eq_some_iff {pageKey : PageKey} :
    table.pageKeyOf? key = some pageKey ↔ ∃ level, table.levelOf? key = some level ∧ key.pageIn level = pageKey := by
  simp [pageKeyOf?]

/-! ## Room for a table -/

/-- Words have room for a table of which every rectangle stays well inside them. -/
theorem fits_of_moderate (h : ∀ layer ∈ table.layers.toList, ∀ gridset ∈ layer.2.gridsets.toList, ∀ area ∈ gridset.2,
    area.Moderate) : table.Fits := by
  intro layer gridset pyramid hdraw zoom level hlevel
  obtain ⟨areas, hareas, hpyramid⟩ := draw_eq_ok_iff.mp hdraw
  obtain ⟨area, hsound, hlast, rfl⟩ := (Pyramid.ofCoverages_levels hpyramid zoom level).mp hlevel
  have harea : area ∈ areas := List.mem_reverse.mp (List.mem_of_find?_eq_some hlast)
  obtain ⟨coverage, hcoverage, hgridset⟩ := areas_eq_ok_iff.mp hareas
  exact (h (layer, coverage) (Table.mem_toList.mpr hcoverage) (gridset, areas) (Table.mem_toList.mpr hgridset) area
    harea).fits_level hsound

/-! ## Layers with the same coverages -/

/-- A tile is covered in the same way under another layer with the same coverages. -/
theorem SameCoverage.levelOf?_renamed {target : String} (h : table.SameCoverage key.layer target) :
    table.levelOf? (key.renamed target) = table.levelOf? key := by
  have hareas := h key.gridset
  have hdraw : (table.draw target key.gridset).toOption = (table.draw key.layer key.gridset).toOption := by
    unfold draw
    cases hlayer : table.areas key.layer key.gridset <;> cases htarget : table.areas target key.gridset <;>
      simp_all [Except.toOption, bind, Except.bind]
  unfold levelOf?
  simp only [TileKey.renamed]
  cases hlayer : table.draw key.layer key.gridset <;> cases htarget : table.draw target key.gridset <;>
    simp_all [Except.toOption]

/-- Layers of which the same is published. -/
theorem sameCoverage_of_layers {layer target : String} (h : table.layers[layer]? = table.layers[target]?) :
    table.SameCoverage layer target := by
  intro gridset
  unfold areas find
  rw [h]
  cases table.layers[target]? with
  | none => rfl
  | some coverage =>
    dsimp only [bind, Except.bind]
    cases coverage.gridsets[gridset]? <;> rfl

/-- A tile is covered in another layer of the same coverage just if it is in its own. -/
theorem SameCoverage.covers_renamed {target : String} (h : table.SameCoverage key.layer target) :
    table.covers (key.renamed target) = table.covers key := by
  rw [covers, covers, h.levelOf?_renamed]

/-! ## The tiles of a page -/

/-- The range that is deleted for a page: the tiles of its tile set at its zoom and in its rectangle. -/
theorem contains_ofPage {set : TileSet} {level : Level} {zoom column row : Nat} (hzoom : zoom ≤ Binary64.maxUInt32) :
    (TileRange.ofPage set (level.pageArea zoom column row)).contains key = true ↔
      (key.layer = set.layer ∧ key.gridset = set.gridset ∧ key.format = set.format ∧ key.parameters = set.parameters) ∧
        key.z = zoom ∧ (level.pageArea zoom column row).contains key.x key.y = true := by
  have hmod : zoom % Nat.pow 2 32 = zoom := Nat.mod_eq_of_lt (Nat.lt_of_le_of_lt hzoom (by decide))
  have hnat : (level.pageArea zoom column row).zoom.toNat = zoom := rfl
  have hneg : ¬((level.pageArea zoom column row).zoom < 0) := by
    change ¬((zoom : Int) < 0)
    omega
  simp only [TileRange.ofPage, TileRange.of, TileRange.contains, TileRange.boundsOf, List.foldl_cons, List.foldl_nil, hnat,
    hmod, if_neg hneg, Bool.and_eq_true, beq_iff_eq, decide_eq_true_eq]
  constructor
  · rintro ⟨⟨⟨⟨⟨⟨hlayer, hgridset⟩, hformat⟩, hparameters⟩, hfirst⟩, hlast⟩, hbounds⟩
    have hz : key.z = zoom := by omega
    rw [hz, Int.toNat_natCast, Table.getElem?_insert, if_pos rfl] at hbounds
    exact ⟨⟨hlayer, hgridset, hformat, hparameters⟩, hz, hbounds⟩
  · rintro ⟨⟨hlayer, hgridset, hformat, hparameters⟩, hz, hbounds⟩
    refine ⟨⟨⟨⟨⟨⟨hlayer, hgridset⟩, hformat⟩, hparameters⟩, by omega⟩, by omega⟩, ?_⟩
    rw [hz, Int.toNat_natCast, Table.getElem?_insert, if_pos rfl]
    exact hbounds

/-- A tile in the range of a page is of the tile set of the page. -/
theorem tileSet_of_contains {set : TileSet} {area : Coverage} (hset : set.Plain)
    (h : (TileRange.ofPage set area).contains key = true) : key.tileSet = set := by
  simp only [TileRange.ofPage, TileRange.of, TileRange.contains, Bool.and_eq_true, beq_iff_eq] at h
  obtain ⟨⟨⟨⟨⟨⟨hlayer, hgridset⟩, hformat⟩, hparameters⟩, -⟩, -⟩, -⟩ := h
  rw [TileKey.tileSet, hlayer, hgridset, hformat, hparameters]
  exact hset.eq_of.symm

/-- Of the covered tiles of a tile set, those of a page and no others lie in the range that is deleted for it. -/
theorem contains_ofPage_iff {pyramid : Pyramid} {page : Page} {area : Coverage} {level : Level} (hfits : table.Fits)
    (hid : page.tileSet = key.tileSet.id) (hdraw : table.draw key.tileSet.layer key.tileSet.gridset = .ok pyramid)
    (harea : pyramid.areaOf page.index = .ok area) (hlevel : table.levelOf? key = some level) :
    (TileRange.ofPage key.tileSet area).contains key = true ↔ key.pageIn level = page.key := by
  obtain ⟨pyramid', hdraw', hnonneg, hlevels, hcontains⟩ := levelOf?_eq_some_iff.mp hlevel
  obtain rfl : pyramid = pyramid' := Except.ok.inj (hdraw.symm.trans hdraw')
  obtain ⟨level', hlevels', hinside, rfl⟩ := Pyramid.areaOf_eq_ok_iff.mp harea
  obtain ⟨areas, -, hpyramid⟩ := draw_eq_ok_iff.mp hdraw
  have hsame : key.z.toNat = page.zoom → level = level' := by
    intro hzoom
    rw [hzoom] at hlevels
    exact Option.some.inj (hlevels.symm.trans hlevels')
  rw [contains_ofPage (Pyramid.zoom_le_of_level hpyramid hlevels')]
  constructor
  · rintro ⟨-, hz, hplace⟩
    have hzoom : key.z.toNat = page.zoom := by
      rw [hz]
      rfl
    obtain rfl := hsame hzoom
    rw [TileKey.pageIn, (Level.pageArea_contains_iff (hfits _ _ _ hdraw _ _ hlevels') hcontains hinside _).mp hplace, hzoom,
      Page.key, hid]
    rfl
  · intro hpage
    obtain ⟨hzoom, hplace⟩ : key.z.toNat = page.zoom ∧ level.pageOf key.x key.y = (page.column, page.row) := by
      simp only [TileKey.pageIn, Page.key, PageKey.mk.injEq] at hpage
      exact ⟨hpage.2.1, Prod.ext hpage.2.2.2 hpage.2.2.1⟩
    obtain rfl := hsame hzoom
    have hz : key.z = page.zoom := by omega
    refine ⟨⟨rfl, rfl, rfl, rfl⟩, hz, ?_⟩
    exact (Level.pageArea_contains_iff (hfits _ _ _ hdraw _ _ hlevels') hcontains hinside _).mpr hplace

/-- The covered tiles of a page lie in the range that is deleted for it. -/
theorem contains_of_pageKeyOf? {set : TileSet} {pyramid : Pyramid} {page : Page} {area : Coverage} (hfits : table.Fits)
    (hkey : key.Plain) (hset : set.Plain) (hid : page.tileSet = set.id) (hdraw : table.draw set.layer set.gridset = .ok pyramid)
    (harea : pyramid.areaOf page.index = .ok area) (h : table.pageKeyOf? key = some page.key) :
    (TileRange.ofPage set area).contains key = true := by
  obtain ⟨level, hlevel, hpage⟩ := pageKeyOf?_eq_some_iff.mp h
  obtain rfl : key.tileSet = set := (hkey.tileSet_eq_iff hset).mp ((congrArg PageKey.tileSet hpage).trans hid)
  exact (contains_ofPage_iff hfits hid hdraw harea hlevel).mpr hpage

/-- How many of some tiles lie on a page. -/
def countOn {β : Type} (table : CoverageTable) (pageKey : PageKey) (tiles : Std.ExtTreeMap TileKey β) : Int :=
  Table.weigh tiles fun key _ => if table.pageKeyOf? key = some pageKey then 1 else 0

/-- No page has fewer than no tiles. -/
theorem countOn_nonneg {β : Type} (table : CoverageTable) (pageKey : PageKey) (tiles : Std.ExtTreeMap TileKey β) :
    0 ≤ table.countOn pageKey tiles := by
  refine Table.weigh_nonneg fun key value _ => ?_
  split <;> omega

/-- Tiles on the same page are of the same tile set, at the same zoom and in the same level. -/
theorem same_level_of_pageIn {key' : TileKey} {level level' : Level} (hkey : key.Plain) (hkey' : key'.Plain)
    (hlevel : table.levelOf? key = some level) (hlevel' : table.levelOf? key' = some level')
    (h : key'.pageIn level' = key.pageIn level) : key'.tileSet = key.tileSet ∧ key'.z = key.z ∧ level' = level := by
  simp only [TileKey.pageIn, PageKey.mk.injEq] at h
  obtain ⟨hid, hzoom, -⟩ := h
  have htileSet : key'.tileSet = key.tileSet := (hkey'.tileSet_eq_iff hkey.tileSet).mp hid
  obtain ⟨pyramid, hdraw, hz, hlevels, -⟩ := levelOf?_eq_some_iff.mp hlevel
  obtain ⟨pyramid', hdraw', hz', hlevels', -⟩ := levelOf?_eq_some_iff.mp hlevel'
  have hlayer : key'.layer = key.layer := congrArg TileSet.layer htileSet
  have hgridset : key'.gridset = key.gridset := congrArg TileSet.gridset htileSet
  rw [hlayer, hgridset] at hdraw'
  obtain rfl : pyramid' = pyramid := Except.ok.inj (hdraw'.symm.trans hdraw)
  rw [hzoom] at hlevels'
  exact ⟨htileSet, by omega, Option.some.inj (hlevels'.symm.trans hlevels)⟩

/-- A tile on the page of a covered one lies in the same level, in the same tile set and at the same zoom. -/
theorem same_level_of_pageKeyOf? {key' : TileKey} {level : Level} (hkey : key.Plain) (hkey' : key'.Plain)
    (hlevel : table.levelOf? key = some level) (h : table.pageKeyOf? key' = some (key.pageIn level)) :
    key'.tileSet = key.tileSet ∧ key'.z = key.z ∧ level.contains key'.x key'.y = true ∧
      level.pageOf key'.x key'.y = level.pageOf key.x key.y := by
  obtain ⟨level', hlevel', hpage⟩ := pageKeyOf?_eq_some_iff.mp h
  obtain ⟨htileSet, hz, rfl⟩ := same_level_of_pageIn hkey hkey' hlevel hlevel' hpage
  obtain ⟨-, -, -, -, hcontains⟩ := levelOf?_eq_some_iff.mp hlevel'
  simp only [TileKey.pageIn, PageKey.mk.injEq] at hpage
  exact ⟨htileSet, hz, hcontains, Prod.ext hpage.2.2.2 hpage.2.2.1⟩

/-- No more tiles lie on a page than a full page has. -/
theorem countOn_le_tilesPerPage {β : Type} {tiles : Std.ExtTreeMap TileKey β} {level : Level}
    (hplain : ∀ key : TileKey, key ∈ tiles → key.Plain) (hkey : key.Plain) (hlevel : table.levelOf? key = some level) :
    table.countOn (key.pageIn level) tiles ≤ level.tilesPerPage := by
  have hcount := Table.weigh_indicator tiles fun key' _ => decide (table.pageKeyOf? key' = some (key.pageIn level))
  simp only [decide_eq_true_eq] at hcount
  rw [countOn, hcount]
  generalize hlist : tiles.toList.filter (fun entry => decide (table.pageKeyOf? entry.1 = some (key.pageIn level))) = onPage
  have hmem : ∀ entry ∈ onPage, entry.1.Plain ∧ table.pageKeyOf? entry.1 = some (key.pageIn level) := by
    intro entry hentry
    rw [← hlist, List.mem_filter, decide_eq_true_eq] at hentry
    exact ⟨hplain _ (Table.mem_iff_exists.mpr ⟨entry.2, Table.mem_toList.mp hentry.1⟩), hentry.2⟩
  have hkeys : (onPage.map Prod.fst).Nodup := by
    rw [← hlist]
    exact (List.Sublist.map _ List.filter_sublist).nodup (Table.nodup_toList_keys tiles)
  have hplaces : ((onPage.map Prod.fst).map fun key' => (key'.x, key'.y)).Nodup := by
    refine List.Nodup.map_on ?_ hkeys
    intro a ha b hb hab
    obtain ⟨entry, hentry, rfl⟩ := List.mem_map.mp ha
    obtain ⟨entry', hentry', rfl⟩ := List.mem_map.mp hb
    obtain ⟨hset, hz, -⟩ := same_level_of_pageKeyOf? hkey (hmem entry hentry).1 hlevel (hmem entry hentry).2
    obtain ⟨hset', hz', -⟩ := same_level_of_pageKeyOf? hkey (hmem entry' hentry').1 hlevel (hmem entry' hentry').2
    exact TileKey.eq_of_tileSet_eq (hset.trans hset'.symm) (Prod.mk.inj hab).1 (Prod.mk.inj hab).2 (hz.trans hz'.symm)
  have hlength := level.length_le_tilesPerPage (level.pageOf key.x key.y) hplaces ?_
  · rw [List.length_map, List.length_map] at hlength
    omega
  · intro tile htile
    obtain ⟨key', hkey', rfl⟩ := List.mem_map.mp htile
    obtain ⟨entry, hentry, rfl⟩ := List.mem_map.mp hkey'
    obtain ⟨-, -, hcontains, hpage⟩ := same_level_of_pageKeyOf? hkey (hmem entry hentry).1 hlevel (hmem entry hentry).2
    exact ⟨hcontains, hpage⟩

end CoverageTable

end TileDepot
