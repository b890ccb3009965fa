import TileDepot.Proofs.Grid

/-!
# Pages cut a level into parts

Every tile that a pyramid covers has one page, and lies in the rectangle of that page and of no other. The rectangles of a
level are disjoint, none of them is without a covered tile, and together they cover the level. The pages of a pyramid are
listed level by level and row by row, so that none is listed twice.
-/

namespace TileDepot

namespace Level

/-- A part that begins inside a width begins before its end. -/
theorem mul_lt_of_lt_parts {index width part : Nat} (h : index < (width + part - 1) / part) (hpart : 0 < part) :
    index * part < width := by
  have hle : (index + 1) * part ≤ width + part - 1 := (Nat.le_div_iff_mul_le hpart).mp h
  rw [Nat.add_mul, Nat.one_mul] at hle
  omega

/-- What lies in the part of a page lies beyond the least corner of the level, and the page is its own. -/
theorem pageOf_of_part_contains {level : Level} {x y : Int} {zoom column row : Nat}
    (h : (level.part zoom column row).contains x y = true) : level.pageOf x y = (column, row) := by
  simp only [Coverage.contains, Bool.and_eq_true, decide_eq_true_eq] at h
  obtain ⟨⟨⟨hx, hx'⟩, hy⟩, hy'⟩ := h
  unfold part at hx hx' hy hy'
  have hcolumn : (0 : Int) ≤ column * level.pageWidth := Int.natCast_nonneg (column * level.pageWidth)
  have hrow : (0 : Int) ≤ row * level.pageHeight := Int.natCast_nonneg (row * level.pageHeight)
  dsimp only at hx hx' hy hy'
  exact Prod.ext ((between_iff level.pageWidth_pos (by omega) column).mp ⟨hx, hx'⟩)
    ((between_iff level.pageHeight_pos (by omega) row).mp ⟨hy, hy'⟩)

/-- The least corner of the rectangle of a page. -/
def corner (level : Level) (column row : Nat) : Int × Int :=
  (level.minX + column * level.pageWidth, level.minY + row * level.pageHeight)

/-- The least corner of a page is a tile of the level. -/
theorem contains_corner {level : Level} {column row : Nat} (hcolumn : column < level.columns) (hrow : row < level.rows) :
    level.contains (level.corner column row).1 (level.corner column row).2 = true := by
  have hx := mul_lt_of_lt_parts hcolumn level.pageWidth_pos
  have hy := mul_lt_of_lt_parts hrow level.pageHeight_pos
  have hx' : ((column * level.pageWidth : Nat) : Int) = column * level.pageWidth := by push_cast; rfl
  have hy' : ((row * level.pageHeight : Nat) : Int) = row * level.pageHeight := by push_cast; rfl
  unfold width at hx
  unfold height at hy
  refine contains_iff.mpr ⟨⟨?_, ?_⟩, ?_, ?_⟩
  all_goals
    unfold corner
    dsimp only
    omega

/-- A part contains its own corner. -/
theorem part_contains_corner (level : Level) (zoom column row : Nat) :
    (level.part zoom column row).contains (level.corner column row).1 (level.corner column row).2 = true := by
  have hx := level.pageWidth_pos
  have hy := level.pageHeight_pos
  simp only [Coverage.contains, Bool.and_eq_true, decide_eq_true_eq]
  simp only [part, corner]
  omega

end Level

/-- The order in which pages are listed. -/
def PageIndex.Precedes (page page' : PageIndex) : Prop :=
  page.zoom < page'.zoom ∨ page.zoom = page'.zoom ∧ (page.row < page'.row ∨ page.row = page'.row ∧ page.column < page'.column)

/-- The level of a zoom cuts a rectangle into pages. -/
structure Pyramid.Cuts (pyramid : Pyramid) (zoom : Nat) (covered : Coverage) (level : Level) : Prop where
  layout : pyramid.level zoom = .ok level
  /-- Every covered tile has a page of the level. -/
  paged : ∀ x y : Int, covered.contains x y = true → ∃ page : PageIndex, pyramid.pageOf x y zoom = .ok page ∧
    page.zoom = zoom ∧ page.column < level.columns ∧ page.row < level.rows
  /-- A covered tile lies in the rectangle of its page and of no other. -/
  contains_iff : ∀ (x y : Int) (page : PageIndex) (area : Coverage), covered.contains x y = true → page.zoom = zoom →
    pyramid.areaOf page = .ok area → (area.contains x y = true ↔ pyramid.pageOf x y zoom = .ok page)
  disjoint : ∀ (page page' : PageIndex) (area area' : Coverage), page.zoom = zoom → page'.zoom = zoom → page ≠ page' →
    pyramid.areaOf page = .ok area → pyramid.areaOf page' = .ok area' →
      ∀ x y : Int, ¬(area.contains x y = true ∧ area'.contains x y = true)
  inhabited : ∀ (page : PageIndex) (area : Coverage), page.zoom = zoom → pyramid.areaOf page = .ok area →
    ∃ x y : Int, covered.contains x y = true ∧ area.contains x y = true
  covers : ∀ x y : Int, covered.contains x y = true →
    ∃ (page : PageIndex) (area : Coverage), page.zoom = zoom ∧ pyramid.areaOf page = .ok area ∧ area.contains x y = true
  page_taken : ∀ column row : Nat, column < level.columns ∧ row < level.rows →
    ∃ area, pyramid.areaOf ⟨column, row, zoom⟩ = .ok area
  /-- A tile outside the rectangle is refused. -/
  tile_refused : ∀ x y : Int, covered.contains x y = false →
    ∃ message, pyramid.pageOf x y zoom = .error (.invalidArgument message)
  /-- A page outside the layout is refused. -/
  page_refused : ∀ column row : Nat, ¬(column < level.columns ∧ row < level.rows) →
    ∃ message, pyramid.areaOf ⟨column, row, zoom⟩ = .error (.invalidArgument message)

namespace Pyramid

variable {pyramid : Pyramid} {areas : List Coverage} {zoom : Nat} {level : Level}

/-- All rectangles of which a pyramid is made are sound. -/
theorem sound_of_ofCoverages (h : ofCoverages areas = .ok pyramid) : ∀ area ∈ areas, area.Sound := by
  have hfold : ∀ (areas : List Coverage) (between : Pyramid), areas.foldlM insertCoverage between = .ok pyramid →
      ∀ area ∈ areas, area.Sound := by
    intro areas
    induction areas with
    | nil => intro _ _ area harea; cases harea
    | cons first areas ih =>
      intro between hfold area harea
      rw [List.foldlM_cons] at hfold
      cases hfirst : between.insertCoverage first with
      | error error => rw [hfirst] at hfold; cases hfold
      | ok next =>
        rw [hfirst] at hfold
        rcases List.mem_cons.mp harea with rfl | hrest
        · exact (insertCoverage_eq_ok_iff.mp hfirst).1
        · exact ih next hfold area hrest
  unfold ofCoverages at h
  split at h
  · cases h
  · exact hfold areas ⟨∅⟩ h

/-- The rectangles that a level has for its pages. -/
theorem areaOf_of_levels (hlevel : pyramid.levels[zoom]? = some level) {page : PageIndex} {area : Coverage}
    (hzoom : page.zoom = zoom) (harea : pyramid.areaOf page = .ok area) :
    (page.column < level.columns ∧ page.row < level.rows) ∧ level.pageArea zoom page.column page.row = area := by
  subst hzoom
  obtain ⟨level', hlevel', hinside, harea⟩ := areaOf_eq_ok_iff.mp harea
  rw [hlevel] at hlevel'
  obtain rfl := Option.some.inj hlevel'
  exact ⟨hinside, harea⟩

/-- The level of a rectangle cuts it into pages. -/
theorem cuts_of_levels {covered : Coverage} (hsound : covered.Sound)
    (hlevel : pyramid.levels[zoom]? = some (covered.level hsound)) (hfits : (covered.level hsound).Fits) :
    pyramid.Cuts zoom covered (covered.level hsound) := by
  have hpageOf : ∀ {x y : Int}, covered.contains x y = true →
      pyramid.pageOf x y zoom = .ok ⟨((covered.level hsound).pageOf x y).1, ((covered.level hsound).pageOf x y).2, zoom⟩ :=
    fun hcovered => pageOf_of_some hlevel hcovered
  have hown : ∀ (x y : Int) (page : PageIndex) (area : Coverage), covered.contains x y = true → page.zoom = zoom →
      pyramid.areaOf page = .ok area → (area.contains x y = true ↔ pyramid.pageOf x y zoom = .ok page) := by
    rintro x y ⟨column, row, zoom⟩ area hcovered rfl harea
    obtain ⟨hplace, rfl⟩ := areaOf_of_levels hlevel rfl harea
    have hinside : (covered.level hsound).contains x y = true := hcovered
    rw [Level.pageArea_contains_iff hfits hinside hplace, hpageOf hcovered, Except.ok.injEq, PageIndex.mk.injEq, Prod.ext_iff]
    simp
  constructor
  case layout => exact level_of_some hlevel
  case paged =>
    intro x y hcovered
    have hinside : (covered.level hsound).contains x y = true := hcovered
    have hlt := Level.pageOf_lt hinside
    exact ⟨_, hpageOf hcovered, rfl, hlt⟩
  case contains_iff => exact hown
  case disjoint =>
    rintro ⟨column, row, zoom⟩ ⟨column', row', zoom'⟩ area area' rfl hzoom hne harea harea' x y ⟨hx, hx'⟩
    obtain ⟨hplace, rfl⟩ := areaOf_of_levels hlevel rfl harea
    obtain ⟨hplace', rfl⟩ := areaOf_of_levels hlevel hzoom harea'
    rw [Level.pageArea_eq_part hfits hplace] at hx
    rw [Level.pageArea_eq_part hfits hplace'] at hx'
    have heq := (Level.pageOf_of_part_contains hx).symm.trans (Level.pageOf_of_part_contains hx')
    obtain ⟨rfl, rfl⟩ := Prod.mk.inj heq
    exact hne (congrArg (PageIndex.mk column row) hzoom.symm)
  case inhabited =>
    intro page area hzoom harea
    obtain ⟨hplace, rfl⟩ := areaOf_of_levels hlevel hzoom harea
    rw [Level.pageArea_eq_part hfits hplace]
    exact ⟨_, _, Level.contains_corner hplace.1 hplace.2, Level.part_contains_corner _ _ _ _⟩
  case covers =>
    intro x y hcovered
    have hinside : (covered.level hsound).contains x y = true := hcovered
    have hlt := Level.pageOf_lt hinside
    have harea : pyramid.areaOf ⟨((covered.level hsound).pageOf x y).1, ((covered.level hsound).pageOf x y).2, zoom⟩ =
        .ok ((covered.level hsound).pageArea zoom _ _) := areaOf_eq_ok_iff.mpr ⟨_, hlevel, hlt, rfl⟩
    exact ⟨_, _, rfl, harea, (hown x y _ _ hcovered rfl harea).mpr (hpageOf hcovered)⟩
  case page_taken =>
    intro column row hinside
    exact ⟨_, areaOf_eq_ok_iff.mpr ⟨_, hlevel, hinside, rfl⟩⟩
  case tile_refused =>
    intro x y hcovered
    have houtside : (covered.level hsound).contains x y = false := hcovered
    rw [pageOf, level_of_some hlevel]
    simp only [bind, Except.bind, houtside]
    exact ⟨_, rfl⟩
  case page_refused =>
    intro column row houtside
    rw [areaOf, level_of_some hlevel]
    simp only [bind, Except.bind, if_neg houtside]
    exact ⟨_, rfl⟩

/-! ## The list of the pages -/

/-- The pages of a level are listed row by row. -/
theorem pairwise_levelPages (zoom : Nat) (level : Level) : (levelPages zoom level).Pairwise PageIndex.Precedes := by
  unfold levelPages
  refine List.pairwise_flatMap.mpr ⟨fun row _ => ?_, ?_⟩
  · rw [List.pairwise_map]
    exact List.pairwise_lt_range.imp fun hlt => Or.inr ⟨rfl, Or.inr ⟨rfl, hlt⟩⟩
  · refine List.pairwise_lt_range.imp fun hlt page hpage page' hpage' => ?_
    obtain ⟨column, -, rfl⟩ := List.mem_map.mp hpage
    obtain ⟨column', -, rfl⟩ := List.mem_map.mp hpage'
    exact Or.inr ⟨rfl, Or.inl hlt⟩

/-- The pages of a pyramid are listed level by level. -/
theorem pairwise_pages (pyramid : Pyramid) : pyramid.pages.Pairwise PageIndex.Precedes := by
  unfold pages
  refine List.pairwise_flatMap.mpr ⟨fun entry _ => pairwise_levelPages entry.1 entry.2, ?_⟩
  have hordered := pyramid.levels.ordered_keys_toList
  refine hordered.imp fun hlt page hpage page' hpage' => Or.inl ?_
  rw [(mem_levelPages.mp hpage).1, (mem_levelPages.mp hpage').1]
  exact Nat.compare_eq_lt.mp hlt

/-- A level has as many pages as its layout. -/
theorem length_levelPages (zoom : Nat) (level : Level) : (levelPages zoom level).length = level.pageCount := by
  simp [levelPages, List.length_flatMap, Level.pageCount, Nat.mul_comm]

/-- As many pages are listed as are counted. -/
theorem length_pages (pyramid : Pyramid) : pyramid.pages.length = pyramid.pageCount := by
  have hfold : ∀ (entries : List (Nat × Level)) (total : Nat),
      entries.foldl (fun total entry => total + entry.2.pageCount) total =
        total + (entries.flatMap fun entry => levelPages entry.1 entry.2).length := by
    intro entries
    induction entries with
    | nil => intro total; rfl
    | cons entry entries ih =>
      intro total
      rw [List.foldl_cons, ih, List.flatMap_cons, List.length_append, length_levelPages, Nat.add_assoc]
  rw [pageCount, Std.ExtTreeMap.foldl_eq_foldl_toList, hfold, Nat.zero_add]
  rfl

/-- The pages of a pyramid are those that have a rectangle. -/
theorem mem_pages_iff_areaOf {page : PageIndex} : page ∈ pyramid.pages ↔ ∃ area, pyramid.areaOf page = .ok area := by
  rw [mem_pages]
  constructor
  · rintro ⟨level, hlevel, hinside⟩
    exact ⟨_, areaOf_eq_ok_iff.mpr ⟨level, hlevel, hinside, rfl⟩⟩
  · rintro ⟨area, harea⟩
    obtain ⟨level, hlevel, hinside, -⟩ := areaOf_eq_ok_iff.mp harea
    exact ⟨level, hlevel, hinside⟩

/-! ## The pages of a pyramid -/

/-- The level at a zoom is that of the last rectangle given for it. -/
theorem levels_of_lastAt (h : ofCoverages areas = .ok pyramid) {covered : Coverage}
    (hlast : Coverage.lastAt areas zoom = some covered) :
    ∃ hsound : covered.Sound, pyramid.levels[zoom]? = some (covered.level hsound) := by
  have hsound := sound_of_ofCoverages h covered (List.mem_reverse.mp (List.mem_of_find?_eq_some hlast))
  exact ⟨hsound, (ofCoverages_levels h zoom _).mpr ⟨covered, hsound, hlast, rfl⟩⟩

/-- A zoom for which no rectangle is given has no level. -/
theorem level_of_lastAt_none (h : ofCoverages areas = .ok pyramid) (hlast : Coverage.lastAt areas zoom = none) :
    ∃ message, pyramid.level zoom = .error (.invalidArgument message) := by
  unfold Pyramid.level
  cases hlevel : pyramid.levels[zoom]? with
  | none => exact ⟨_, rfl⟩
  | some level =>
    obtain ⟨area, -, harea, -⟩ := (ofCoverages_levels h zoom level).mp hlevel
    rw [hlast] at harea
    cases harea

/-- Of the rectangles of which a pyramid is made that words have room for, the last one given for a zoom is cut into pages by the
level of that zoom; at any other zoom there are no tiles and no pages. Every page that has a rectangle is listed once, as many as
are counted, with the zooms ascending. -/
theorem pages_partition_levels (h : ofCoverages areas = .ok pyramid) (hfits : pyramid.Fits) :
    (∀ (zoom : Nat) (covered : Coverage), Coverage.lastAt areas zoom = some covered →
      ∃ level, pyramid.Cuts zoom covered level) ∧
    (∀ zoom : Nat, Coverage.lastAt areas zoom = none →
      (∀ x y : Int, ∃ message, pyramid.pageOf x y zoom = .error (.invalidArgument message)) ∧
        ∀ column row : Nat, ∃ message, pyramid.areaOf ⟨column, row, zoom⟩ = .error (.invalidArgument message)) ∧
    pyramid.pages.Nodup ∧ (∀ page, page ∈ pyramid.pages ↔ ∃ area, pyramid.areaOf page = .ok area) ∧
    pyramid.pages.length = pyramid.pageCount ∧ pyramid.pages.Pairwise (·.zoom ≤ ·.zoom) := by
  refine ⟨fun zoom covered hlast => ?_, fun zoom hlast => ?_, ?_, fun page => mem_pages_iff_areaOf, length_pages pyramid, ?_⟩
  · obtain ⟨hsound, hlevel⟩ := levels_of_lastAt h hlast
    exact ⟨_, cuts_of_levels hsound hlevel (hfits _ _ hlevel)⟩
  · obtain ⟨message, hlevel⟩ := level_of_lastAt_none h hlast
    refine ⟨fun x y => ⟨message, ?_⟩, fun column row => ⟨message, ?_⟩⟩
    · rw [pageOf, hlevel]
      rfl
    · rw [areaOf, hlevel]
      rfl
  · refine (pairwise_pages pyramid).imp fun {page page'} hprecedes heq => ?_
    unfold PageIndex.Precedes at hprecedes
    subst heq
    omega
  · refine (pairwise_pages pyramid).imp fun {page page'} hprecedes => ?_
    unfold PageIndex.Precedes at hprecedes
    omega

/-- A level that begins left of the origin, and whose last pages reach beyond it: 103 columns of tiles, three to a page. -/
theorem pages_partition_levels_overhanging :
    ∃ pyramid level, ofCoverages [⟨-60, -7, 42, 2, 3⟩] = .ok pyramid ∧ pyramid.Cuts 3 ⟨-60, -7, 42, 2, 3⟩ level ∧
      pyramid.areaOf ⟨34, 9, 3⟩ = .ok ⟨42, 2, 44, 2, 3⟩ ∧ pyramid.pages.length = 350 := by
  have h : ofCoverages [⟨-60, -7, 42, 2, 3⟩] =
      .ok ⟨(∅ : Std.ExtTreeMap Nat Level).insert 3 (.ofCoverage ⟨-60, -7, 42, 2, 3⟩ (by decide) (by decide))⟩ := rfl
  have hfits : Fits ⟨(∅ : Std.ExtTreeMap Nat Level).insert 3 (.ofCoverage ⟨-60, -7, 42, 2, 3⟩ (by decide) (by decide))⟩ := by
    intro zoom level hlevel
    rw [Table.getElem?_insert] at hlevel
    split at hlevel
    · obtain rfl := Option.some.inj hlevel
      decide +kernel
    · simp at hlevel
  obtain ⟨hcuts, -, -, -, hlength, -⟩ := pages_partition_levels h hfits
  obtain ⟨level, hlevel⟩ := hcuts 3 ⟨-60, -7, 42, 2, 3⟩ rfl
  exact ⟨_, level, h, hlevel, by decide +kernel, hlength.trans (by decide +kernel)⟩

end Pyramid

end TileDepot
