import Mathlib.Data.List.Nodup
import Mathlib.Data.List.Perm.Subperm
import Mathlib.Data.List.ProdSigma
import Mathlib.Tactic.Tauto
import TileDepot.Grid.Pyramid
import TileDepot.Proofs.Table

/-!
# Pages of a level

The pages of a level cut its tiles into disjoint rectangles. A tile of the level lies in the rectangle of a page exactly when
the page is its own, its page is one of the pages of the level, and no page has more tiles than a full one. This takes a level
that words have room for: where the last page reaches beyond the largest word, a corner of its rectangle wraps around. The levels
of a pyramid are those of the rectangles it was made of: of two rectangles at one zoom the later counts.
-/

namespace TileDepot

namespace Level

/-- An index below a width lies in one of the parts the width is cut into. -/
theorem div_lt_parts {index width part : Nat} (h : index < width) (hpart : 0 < part) :
    index / part < (width + part - 1) / part := by
  have hnext : index / part + 1 = (index + part) / part := (Nat.add_div_right index hpart).symm
  have hle : (index + part) / part ≤ (width + part - 1) / part := Nat.div_le_div_right (by omega)
  omega

/-- The page of a tile of the level is one of the pages of the level. -/
theorem pageOf_lt {level : Level} {x y : Int} (h : level.contains x y = true) :
    (level.pageOf x y).1 < level.columns ∧ (level.pageOf x y).2 < level.rows := by
  obtain ⟨⟨hx, hx'⟩, hy, hy'⟩ := contains_iff.mp h
  refine ⟨div_lt_parts ?_ level.pageWidth_pos, div_lt_parts ?_ level.pageHeight_pos⟩
  · unfold width
    omega
  · unfold height
    omega

/-- Along one axis, an offset lies between the borders of a part exactly when it is the part the offset falls into. -/
theorem between_iff {least value : Int} {part : Nat} (hpart : 0 < part) (h : least ≤ value) (index : Nat) :
    (least + index * part ≤ value ∧ value ≤ least + index * part + part - 1) ↔ (value - least).toNat / part = index := by
  rw [Nat.div_eq_iff hpart]
  have hcast : ((index * part : Nat) : Int) = index * part := by push_cast; rfl
  omega

/-- The part of the plane that a page stands for. -/
def part (level : Level) (zoom column row : Nat) : Coverage where
  minX := level.minX + column * level.pageWidth
  minY := level.minY + row * level.pageHeight
  maxX := level.minX + column * level.pageWidth + level.pageWidth - 1
  maxY := level.minY + row * level.pageHeight + level.pageHeight - 1
  zoom := zoom

/-- A level that words of 64 bits have room for: neither its length along an axis nor the end of its last page leaves its word. -/
structure Fits (level : Level) : Prop where
  least_le_minX : -2 ^ 63 ≤ level.minX
  least_le_minY : -2 ^ 63 ≤ level.minY
  width_lt : level.width + level.pageWidth < 2 ^ 63
  height_lt : level.height + level.pageHeight < 2 ^ 63
  endX_lt : level.minX + level.columns * level.pageWidth < 2 ^ 63
  endY_lt : level.minY + level.rows * level.pageHeight < 2 ^ 63

/-- A level fits in words when its borders, its sides and the ends of its last pages do. -/
theorem fits_iff {level : Level} : level.Fits ↔ (-2 ^ 63 ≤ level.minX ∧ -2 ^ 63 ≤ level.minY) ∧
    (level.width + level.pageWidth < 2 ^ 63 ∧ level.height + level.pageHeight < 2 ^ 63) ∧
    level.minX + level.columns * level.pageWidth < 2 ^ 63 ∧ level.minY + level.rows * level.pageHeight < 2 ^ 63 :=
  ⟨fun h => ⟨⟨h.1, h.2⟩, ⟨h.3, h.4⟩, h.5, h.6⟩, fun ⟨⟨h₁, h₂⟩, ⟨h₃, h₄⟩, h₅, h₆⟩ => ⟨h₁, h₂, h₃, h₄, h₅, h₆⟩⟩

instance (level : Level) : Decidable level.Fits := decidable_of_iff' _ fits_iff

/-- However long an axis is, the length of a page along it is a word of 32 bits. -/
theorem pageSide_le (tiles : Int) : pageSide tiles ≤ Binary64.maxUInt32 := by
  have hclamp (x : Binary64) : x.toInt .up 1 Binary64.maxUInt32 ≤ Binary64.maxUInt32 := by
    unfold Binary64.toInt
    split
    · decide
    · split <;> decide
    · dsimp only [Binary64.clamp]
      split_ifs with hlow hhigh
      · decide
      · exact Int.le_refl _
      · exact Int.not_lt.mp hhigh
  unfold pageSide
  split_ifs
  · decide
  · exact Nat.max_le.mpr ⟨by decide, Int.toNat_le.mpr (hclamp _)⟩

/-- The pages along an axis reach less than a page beyond it. -/
theorem parts_mul_lt (width : Nat) {part : Nat} (hpart : 0 < part) : (width + part - 1) / part * part < width + part := by
  have := Nat.div_mul_le_self (width + part - 1) part
  omega

/-- Along one axis, the borders of a part fit in a word where the end of the last part does. -/
theorem fits_borders {least : Int} {part parts index : Nat} (hpart : 0 < part) (hleast : -2 ^ 63 ≤ least)
    (hend : least + parts * part < 2 ^ 63) (hindex : index < parts) :
    Word.Fits 64 (least + index * part) ∧ Word.Fits 64 (least + index * part + part - 1) := by
  have hnext : ((index + 1) * part : Int) ≤ parts * part := by exact_mod_cast Nat.mul_le_mul_right part hindex
  have hnonneg : (0 : Int) ≤ index * part := Int.natCast_nonneg (index * part)
  rw [Int.add_mul, Int.one_mul] at hnext
  have hhalf : Word.half 64 = 2 ^ 63 := by decide
  rw [Word.Fits, Word.Fits, hhalf]
  omega

/-- In a level that words have room for, a page stands for its part of the plane. -/
theorem pageArea_eq_part {level : Level} (h : level.Fits) {column row : Nat}
    (hinside : column < level.columns ∧ row < level.rows) (zoom : Nat) :
    level.pageArea zoom column row = level.part zoom column row := by
  obtain ⟨hminX, hmaxX⟩ := fits_borders level.pageWidth_pos h.least_le_minX h.endX_lt hinside.1
  obtain ⟨hminY, hmaxY⟩ := fits_borders level.pageHeight_pos h.least_le_minY h.endY_lt hinside.2
  rw [pageArea, part, Word.wrap_of_fits hminX, Word.wrap_of_fits hminY, Word.wrap_of_fits hmaxX, Word.wrap_of_fits hmaxY]

/-- A tile of the level lies in the part of its own page and of no other. -/
theorem part_contains_iff {level : Level} {x y : Int} (h : level.contains x y = true) (zoom column row : Nat) :
    (level.part zoom column row).contains x y = true ↔ level.pageOf x y = (column, row) := by
  obtain ⟨⟨hx, -⟩, hy, -⟩ := contains_iff.mp h
  have hcolumn := between_iff level.pageWidth_pos hx column
  have hrow := between_iff level.pageHeight_pos hy row
  simp only [Coverage.contains, Bool.and_eq_true, decide_eq_true_eq]
  simp only [part, pageOf, Prod.mk.injEq, ← hcolumn, ← hrow]
  tauto

/-- A tile of the level lies in the rectangle of its own page and of no other. -/
theorem pageArea_contains_iff {level : Level} (hfits : level.Fits) {x y : Int} (h : level.contains x y = true)
    {column row : Nat} (hinside : column < level.columns ∧ row < level.rows) (zoom : Nat) :
    (level.pageArea zoom column row).contains x y = true ↔ level.pageOf x y = (column, row) := by
  rw [pageArea_eq_part hfits hinside, part_contains_iff h]

/-- The place of a tile inside its page. -/
def placeInPage (level : Level) (x y : Int) : Nat × Nat :=
  ((x - level.minX).toNat % level.pageWidth, (y - level.minY).toNat % level.pageHeight)

/-- Tiles of one page in one place are one tile. -/
theorem eq_of_placeInPage {level : Level} {x y x' y' : Int} (h : level.contains x y = true)
    (h' : level.contains x' y' = true) (hpage : level.pageOf x y = level.pageOf x' y')
    (hplace : level.placeInPage x y = level.placeInPage x' y') : x = x' ∧ y = y' := by
  obtain ⟨⟨hx, -⟩, hy, -⟩ := contains_iff.mp h
  obtain ⟨⟨hx', -⟩, hy', -⟩ := contains_iff.mp h'
  simp only [pageOf, placeInPage, Prod.mk.injEq] at hpage hplace
  have hcolumn : (x - level.minX).toNat = (x' - level.minX).toNat := by
    rw [← Nat.div_add_mod (x - level.minX).toNat level.pageWidth, hpage.1, hplace.1, Nat.div_add_mod]
  have hrow : (y - level.minY).toNat = (y' - level.minY).toNat := by
    rw [← Nat.div_add_mod (y - level.minY).toNat level.pageHeight, hpage.2, hplace.2, Nat.div_add_mod]
  omega

/-- The places inside a page are as many as the tiles of a full page. -/
theorem placeInPage_mem (level : Level) (x y : Int) :
    level.placeInPage x y ∈ List.range level.pageWidth ×ˢ List.range level.pageHeight := by
  refine List.pair_mem_product.mpr ⟨List.mem_range.mpr ?_, List.mem_range.mpr ?_⟩
  · exact Nat.mod_lt _ level.pageWidth_pos
  · exact Nat.mod_lt _ level.pageHeight_pos

/-- No page has more tiles than a full one. -/
theorem length_le_tilesPerPage (level : Level) {tiles : List (Int × Int)} (page : Nat × Nat) (hnodup : tiles.Nodup)
    (h : ∀ tile ∈ tiles, level.contains tile.1 tile.2 = true ∧ level.pageOf tile.1 tile.2 = page) :
    tiles.length ≤ level.tilesPerPage := by
  have hplaces : (tiles.map fun tile => level.placeInPage tile.1 tile.2).Nodup := by
    refine List.Nodup.map_on ?_ hnodup
    intro a ha b hb hab
    obtain ⟨hx, hy⟩ := eq_of_placeInPage (h a ha).1 (h b hb).1 ((h a ha).2.trans (h b hb).2.symm) hab
    exact Prod.ext hx hy
  have hsub : (tiles.map fun tile => level.placeInPage tile.1 tile.2) ⊆
      List.range level.pageWidth ×ˢ List.range level.pageHeight := by
    intro place hplace
    obtain ⟨tile, -, rfl⟩ := List.mem_map.mp hplace
    exact level.placeInPage_mem tile.1 tile.2
  have hle := (List.subperm_of_subset hplaces hsub).length_le
  rwa [List.length_map, List.length_product, List.length_range, List.length_range] at hle

end Level

/-! ## Levels of a pyramid -/

/-- A rectangle that makes a level: its zoom is a word of 32 bits, and it has a tile. -/
structure Coverage.Sound (area : Coverage) : Prop where
  zoom_nonneg : 0 ≤ area.zoom
  zoom_le : area.zoom ≤ Binary64.maxUInt32
  minX_le : area.minX ≤ area.maxX
  minY_le : area.minY ≤ area.maxY

namespace Coverage

/-- The level of a sound rectangle. -/
def level (area : Coverage) (h : area.Sound) : Level := .ofCoverage area h.minX_le h.minY_le

/-- A rectangle that stays well inside words of 64 bits, as those of any gridset in use do. -/
def Moderate (area : Coverage) : Prop :=
  (-2 ^ 61 ≤ area.minX ∧ -2 ^ 61 ≤ area.minY) ∧ area.maxX < 2 ^ 61 ∧ area.maxY < 2 ^ 61

instance (area : Coverage) : Decidable area.Moderate := inferInstanceAs (Decidable (_ ∧ _))

/-- Words have room for the level of a rectangle that stays well inside them. -/
theorem Moderate.fits_level {area : Coverage} (hmoderate : area.Moderate) (h : area.Sound) : (area.level h).Fits := by
  obtain ⟨hleast, hmost⟩ := hmoderate
  have hx := h.minX_le
  have hy := h.minY_le
  have hwidth : (area.level h).width = (1 + area.maxX - area.minX).toNat := rfl
  have hheight : (area.level h).height = (1 + area.maxY - area.minY).toNat := rfl
  have hpageWidth : (area.level h).pageWidth ≤ 2 ^ 32 - 1 := Level.pageSide_le _
  have hpageHeight : (area.level h).pageHeight ≤ 2 ^ 32 - 1 := Level.pageSide_le _
  have hcolumns : (area.level h).columns * (area.level h).pageWidth < (area.level h).width + (area.level h).pageWidth :=
    Level.parts_mul_lt _ (area.level h).pageWidth_pos
  have hrows : (area.level h).rows * (area.level h).pageHeight < (area.level h).height + (area.level h).pageHeight :=
    Level.parts_mul_lt _ (area.level h).pageHeight_pos
  have hcolumns' : ((area.level h).columns * (area.level h).pageWidth : Int) < (area.level h).width + (area.level h).pageWidth :=
    mod_cast hcolumns
  have hrows' : ((area.level h).rows * (area.level h).pageHeight : Int) < (area.level h).height + (area.level h).pageHeight :=
    mod_cast hrows
  refine ⟨?_, ?_, ?_, ?_, ?_, ?_⟩
  · exact Int.le_trans (by decide) hleast.1
  · exact Int.le_trans (by decide) hleast.2
  · omega
  · omega
  · change area.minX + _ < _
    omega
  · change area.minY + _ < _
    omega

/-- The last of some rectangles that is given for a zoom. -/
def lastAt (areas : List Coverage) (zoom : Int) : Option Coverage := areas.reverse.find? (·.zoom == zoom)

/-- The last rectangle at a zoom is found in the rest of a list, or else at its head. -/
theorem lastAt_cons (area : Coverage) (areas : List Coverage) (zoom : Int) :
    lastAt (area :: areas) zoom = (lastAt areas zoom).or (if area.zoom = zoom then some area else none) := by
  rw [lastAt, List.reverse_cons, List.find?_append]
  by_cases h : area.zoom = zoom <;> simp [lastAt, h]

end Coverage

namespace Pyramid

/-- A pyramid that words have room for. -/
def Fits (pyramid : Pyramid) : Prop := ∀ (zoom : Nat) (level : Level), pyramid.levels[zoom]? = some level → level.Fits

/-- A rectangle that is sound takes its place in the pyramid as the level of its zoom. -/
theorem insertCoverage_eq_ok_iff {pyramid pyramid' : Pyramid} {area : Coverage} :
    pyramid.insertCoverage area = .ok pyramid' ↔
      ∃ h : area.Sound, pyramid' = ⟨pyramid.levels.insert area.zoom.toNat (area.level h)⟩ := by
  unfold insertCoverage
  split
  · rename_i hzoom
    constructor
    · intro h; cases h
    · rintro ⟨h, -⟩
      have := h.zoom_nonneg
      have := h.zoom_le
      omega
  · split
    · rename_i hzoom hcorners
      have hsound : area.Sound := ⟨by omega, by omega, hcorners.1, hcorners.2⟩
      constructor
      · intro h
        exact ⟨hsound, (Except.ok.inj h).symm⟩
      · rintro ⟨-, rfl⟩
        rfl
    · rename_i hcorners
      constructor
      · intro h; cases h
      · rintro ⟨h, -⟩
        exact absurd ⟨h.minX_le, h.minY_le⟩ hcorners

/-- The levels of a pyramid after some more rectangles: for each zoom the last rectangle counts, if there is one. -/
theorem foldlM_insertCoverage {areas : List Coverage} :
    ∀ {pyramid pyramid' : Pyramid}, areas.foldlM insertCoverage pyramid = .ok pyramid' → ∀ (zoom : Nat) (level : Level),
      pyramid'.levels[zoom]? = some level ↔
        (∃ (area : Coverage) (h : area.Sound), Coverage.lastAt areas zoom = some area ∧ area.level h = level) ∨
          (Coverage.lastAt areas zoom = none ∧ pyramid.levels[zoom]? = some level) := by
  induction areas with
  | nil =>
    intro pyramid pyramid' h zoom level
    cases h
    simp [Coverage.lastAt]
  | cons area areas ih =>
    intro pyramid pyramid' h zoom level
    rw [List.foldlM_cons] at h
    cases hfirst : pyramid.insertCoverage area with
    | error error => rw [hfirst] at h; cases h
    | ok between =>
      rw [hfirst] at h
      obtain ⟨hsound, rfl⟩ := insertCoverage_eq_ok_iff.mp hfirst
      rw [ih h zoom level, Coverage.lastAt_cons]
      cases hlast : Coverage.lastAt areas zoom with
      | some later => simp
      | none =>
        have hzoom : area.zoom.toNat = zoom ↔ area.zoom = zoom := by
          have := hsound.zoom_nonneg
          omega
        rw [Table.getElem?_insert]
        by_cases hhere : area.zoom = zoom
        · simp [hhere, hsound]
        · simp [mt hzoom.mp hhere, hhere]

/-- The level of a zoom is that of the last rectangle given for it. -/
theorem ofCoverages_levels {areas : List Coverage} {pyramid : Pyramid} (h : ofCoverages areas = .ok pyramid) (zoom : Nat)
    (level : Level) :
    pyramid.levels[zoom]? = some level ↔
      ∃ (area : Coverage) (h : area.Sound), Coverage.lastAt areas zoom = some area ∧ area.level h = level := by
  unfold ofCoverages at h
  split at h
  · cases h
  · rw [foldlM_insertCoverage h]
    simp

/-- Every level of a pyramid has a zoom of 32 bits. -/
theorem zoom_le_of_level {areas : List Coverage} {pyramid : Pyramid} (h : ofCoverages areas = .ok pyramid) {zoom : Nat}
    {level : Level} (hlevel : pyramid.levels[zoom]? = some level) : zoom ≤ Binary64.maxUInt32 := by
  obtain ⟨area, hsound, hlast, -⟩ := (ofCoverages_levels h zoom level).mp hlevel
  have hzoom := List.find?_some hlast
  simp only [beq_iff_eq] at hzoom
  have := hsound.zoom_le
  omega

/-- A level that the pyramid has is given. -/
theorem level_of_some {pyramid : Pyramid} {zoom : Nat} {level : Level} (h : pyramid.levels[zoom]? = some level) :
    pyramid.level zoom = .ok level := by
  rw [Pyramid.level, h]

/-- A full page at a zoom has as many tiles as its level says. -/
theorem tilesPerPage_of_some {pyramid : Pyramid} {zoom : Nat} {level : Level} (h : pyramid.levels[zoom]? = some level) :
    pyramid.tilesPerPage zoom = .ok level.tilesPerPage := by
  rw [tilesPerPage, level_of_some h]
  rfl

/-- A tile inside a level has the page that the level cuts it to. -/
theorem pageOf_of_some {pyramid : Pyramid} {x y : Int} {zoom : Nat} {level : Level} (h : pyramid.levels[zoom]? = some level)
    (hcontains : level.contains x y = true) :
    pyramid.pageOf x y zoom = .ok ⟨(level.pageOf x y).1, (level.pageOf x y).2, zoom⟩ := by
  rw [pageOf, level_of_some h]
  simp only [bind, Except.bind, hcontains, if_true]
  rfl

/-- A tile without a level, or outside the level of its zoom, has no page. -/
theorem pageOf_of_none {pyramid : Pyramid} {x y : Int} {zoom : Nat}
    (h : (pyramid.levels[zoom]?.filter (·.contains x y)) = none) : ∃ error, pyramid.pageOf x y zoom = .error error := by
  unfold pageOf Pyramid.level
  cases hlevel : pyramid.levels[zoom]? with
  | none => exact ⟨_, rfl⟩
  | some level =>
    have hcontains : ¬level.contains x y = true := by simpa [hlevel, Option.filter_eq_none_iff] using h
    simp only [bind, Except.bind, hcontains]
    exact ⟨_, rfl⟩

/-- A page has a rectangle if it lies in a level of the pyramid, and then that of the level. -/
theorem areaOf_eq_ok_iff {pyramid : Pyramid} {index : PageIndex} {area : Coverage} :
    pyramid.areaOf index = .ok area ↔ ∃ level, pyramid.levels[index.zoom]? = some level ∧
      (index.column < level.columns ∧ index.row < level.rows) ∧ level.pageArea index.zoom index.column index.row = area := by
  unfold areaOf Pyramid.level
  cases pyramid.levels[index.zoom]? with
  | none => simp [bind, Except.bind]
  | some level =>
    by_cases h : index.column < level.columns ∧ index.row < level.rows
    · simp [h, bind, Except.bind, pure, Except.pure]
    · simp [h, bind, Except.bind, throw, throwThe, MonadExceptOf.throw]

/-- The pages of a level are those that lie in its layout. -/
theorem mem_levelPages {zoom : Nat} {level : Level} {index : PageIndex} :
    index ∈ levelPages zoom level ↔ index.zoom = zoom ∧ index.column < level.columns ∧ index.row < level.rows := by
  simp only [levelPages, List.mem_flatMap, List.mem_map, List.mem_range]
  constructor
  · rintro ⟨row, hrow, column, hcolumn, rfl⟩
    exact ⟨rfl, hcolumn, hrow⟩
  · rintro ⟨rfl, hcolumn, hrow⟩
    exact ⟨index.row, hrow, index.column, hcolumn, rfl⟩

/-- The pages of a pyramid are those of its levels. -/
theorem mem_pages {pyramid : Pyramid} {index : PageIndex} :
    index ∈ pyramid.pages ↔
      ∃ level, pyramid.levels[index.zoom]? = some level ∧ index.column < level.columns ∧ index.row < level.rows := by
  simp only [pages, List.mem_flatMap, Prod.exists, Table.mem_toList]
  constructor
  · rintro ⟨zoom, level, hlevel, hindex⟩
    obtain ⟨rfl, hcolumn, hrow⟩ := mem_levelPages.mp hindex
    exact ⟨level, hlevel, hcolumn, hrow⟩
  · rintro ⟨level, hlevel, hcolumn, hrow⟩
    exact ⟨index.zoom, level, hlevel, mem_levelPages.mpr ⟨rfl, hcolumn, hrow⟩⟩

end Pyramid

end TileDepot
