import TileDepot.Page.Stats
import TileDepot.Proofs.Number.Finite

/-!
# Statistics that can be stored

The numbers of a page's statistics fit the words they are stored in, and its frequency of use stays finite: hits count for more
the emptier the page is, but there is a least fill, so that what is added to the frequency is far below the largest number.
-/

namespace TileDepot

open Binary64

namespace Binary64

/-! ## Words -/

/-- A number that fits a signed word of 64 bits. -/
def Word (n : Int) : Prop := minInt64 ≤ n ∧ n ≤ maxInt64

instance (n : Int) : Decidable (Word n) := inferInstanceAs (Decidable (_ ∧ _))

/-- Zero fits in a word. -/
theorem word_zero : Word 0 := ⟨by decide, by decide⟩

/-- One fits in a word. -/
theorem word_one : Word 1 := ⟨by decide, by decide⟩

/-! ## Light numbers -/

/-- A finite number of at most 88 digits before the point. -/
structure Light (x : Float) : Prop where
  finite : x.isFinite = true
  le : magnitude x.toModel.unpack ≤ 2 ^ (88 : ℤ)

variable {number : Float}

/-- A number that is near to a value of moderate size is light. -/
theorem Nears.light {x : ℚ} {j : ℤ} (h : Nears number x) (hlow : 2 ^ j ≤ x) (hhigh : x ≤ 2 ^ (88 : ℤ)) : Light number := by
  refine ⟨h.isFinite, ?_⟩
  rw [h.magnitude_eq]
  exact (worth_rounded_bounds hlow hhigh).2

/-- Nothing is light. -/
theorem light_of_zero (h : number.toModel.unpack = .zero .positive) : Light number := by
  refine ⟨?_, ?_⟩
  · change number.toModel.unpack.isFinite = true
    rw [h]
    rfl
  · rw [h]
    exact zpow_nonneg two_pos.le 88

/-- What is light does not make a number infinite. -/
theorem Light.isFinite_add {x : Float} (h : Light number) (hx : x.isFinite = true) : (x + number).isFinite = true := by
  refine Binary64.isFinite_add hx h.finite (lt_of_le_of_lt (add_le_add_left (magnitude_le_largest x) _) ?_)
  exact largest_add_lt_overflow (h.le.trans_lt (zpow_lt_zpow_right₀ one_lt_two (by norm_num)))

/-- Half of a finite number is finite. -/
theorem isFinite_half {x : Float} (hx : x.isFinite = true) : (x / 2.0).isFinite = true := by
  have htwo : atLeastOne (2.0 : Float).toModel.unpack = true := by decide +kernel
  exact isFinite_div_of_one_le hx (one_le_magnitude htwo).2

end Binary64

namespace PageStats

/-! ## The weight of hits -/

/-- What the weight of some hits on a page is nearest to. -/
theorem nears_weight {hits fill : ℕ} (hhits : 0 < hits) (hhits' : hits ≤ maxUInt64) (hfill : 0 < fill)
    (hfill' : fill ≤ maxInt64) : ∃ x, Nears (.ofNat hits / (.ofNat fill / .ofNat 10000000)) x ∧
      2 ^ (-63 : ℤ) ≤ x ∧ x ≤ 2 ^ (88 : ℤ) := by
  have hhits₀ : hits ≤ 2 ^ 64 := hhits'.trans (by decide)
  have hfill₀ : fill ≤ 2 ^ 63 := by
    have hmax : maxInt64 < 2 ^ 63 := by decide
    exact_mod_cast (hfill'.trans_lt hmax).le
  obtain ⟨hlow, hhigh⟩ := natCast_bounds hhits hhits₀
  obtain ⟨hlow', hhigh'⟩ := natCast_bounds hfill hfill₀
  obtain ⟨hone, hscale⟩ := natCast_bounds (show 0 < 10000000 by norm_num) (show 10000000 ≤ 2 ^ 24 by norm_num)
  have hshare : 2 ^ (-24 : ℤ) ≤ share fill 10000000 ∧ share fill 10000000 ≤ 2 ^ (63 : ℤ) := by
    obtain ⟨hfirst, hfirst'⟩ := worth_rounded_bounds hlow' hhigh'
    obtain ⟨hsecond, hsecond'⟩ := worth_rounded_bounds hone hscale
    exact div_bounds hfirst hfirst' hsecond hsecond'
  have hnears := nears_share hfill (hfill₀.trans_lt (by norm_num)) (show 0 < 10000000 by norm_num) (by norm_num)
  have hmoderate : Moderate 400 (share fill 10000000) := moderate_of_bounds
    ((zpow_le_zpow_right₀ one_le_two (by norm_num)).trans hshare.1) (hshare.2.trans (zpow_le_zpow_right₀ one_le_two (by norm_num)))
  obtain ⟨hfirst, hfirst'⟩ := worth_rounded_bounds hlow hhigh
  obtain ⟨hsecond, hsecond'⟩ := worth_rounded_bounds hshare.1 hshare.2
  exact ⟨_, nears_div (nears_ofNat hhits (hhits₀.trans_lt (by norm_num))) hnears
    ((moderate_natCast hhits (hhits₀.trans_lt (by norm_num))).mono (by norm_num)) hmoderate,
    div_bounds hfirst hfirst' hsecond hsecond'⟩

/-- Hits are light, and so is what they come to in a minute. -/
theorem light_weight {hits fill : ℕ} (hhits : hits ≤ maxUInt64) (hfill : 0 < fill) (hfill' : fill ≤ maxInt64) :
    Light (.ofNat hits / (.ofNat fill / .ofNat 10000000)) ∧ ∀ {minutes : ℕ}, 0 < minutes → minutes ≤ maxInt64 →
      Light (.ofNat hits / (.ofNat fill / .ofNat 10000000) / .ofNat minutes) := by
  have hmax : maxInt64 < 2 ^ 63 := by decide
  have hfill₀ : fill ≤ 2 ^ 63 := by exact_mod_cast (hfill'.trans_lt hmax).le
  have hminutes : ∀ {minutes : ℕ}, minutes ≤ maxInt64 → minutes ≤ 2 ^ 63 := fun h => by exact_mod_cast (h.trans_lt hmax).le
  rcases Nat.eq_zero_or_pos hits with rfl | hpos
  · have hfactor := nears_share hfill (hfill₀.trans_lt (by norm_num)) (show 0 < 10000000 by norm_num) (by norm_num)
    have hzero := unpack_zero_div unpack_ofNat_zero hfactor
    refine ⟨light_of_zero hzero, fun hpos h => ?_⟩
    exact light_of_zero (unpack_zero_div hzero (nears_ofNat hpos ((hminutes h).trans_lt (by norm_num))))
  · obtain ⟨x, hx, hlow, hhigh⟩ := nears_weight hpos hhits hfill hfill'
    refine ⟨hx.light hlow hhigh, fun {minutes} hpos h => ?_⟩
    obtain ⟨hone, hbound⟩ := natCast_bounds hpos (hminutes h)
    obtain ⟨hfirst, hfirst'⟩ := worth_rounded_bounds hlow hhigh
    obtain ⟨hsecond, hsecond'⟩ := worth_rounded_bounds hone hbound
    obtain ⟨hquotient, hquotient'⟩ := div_bounds hfirst hfirst' hsecond hsecond'
    refine Nears.light (nears_div hx (nears_ofNat hpos ((hminutes h).trans_lt (by norm_num))) (moderate_of_bounds ?_ ?_)
      ((moderate_natCast hpos ((hminutes h).trans_lt (by norm_num))).mono (by norm_num))) hquotient hquotient'
    · exact (zpow_le_zpow_right₀ one_le_two (by norm_num)).trans hlow
    · exact hhigh.trans (zpow_le_zpow_right₀ one_le_two (by norm_num))

/-! ## What can be stored -/

/-- Numbers that fit the words they are stored in, and a finite frequency. -/
structure Storable (stats : PageStats) : Prop where
  fill : Word stats.fill
  frequency : stats.frequency.isFinite = true
  lastAccess : Word stats.lastAccess
  hits : stats.hits ≤ maxUInt64

variable {stats : PageStats} {now : Int}

/-- Fresh statistics can be stored. -/
theorem storable_fresh (hnow : Word now) : (fresh now).Storable :=
  ⟨word_zero, show (0.0 : Float).isFinite = true from rfl, hnow, Nat.zero_le _⟩

/-- Statistics that can be stored still can once their page is emptied. -/
theorem Storable.truncated (h : stats.Storable) : stats.truncated.Storable :=
  ⟨word_zero, h.frequency, h.lastAccess, h.hits⟩

/-- Statistics that can be stored still can when tiles come or go. -/
theorem Storable.addTiles (h : stats.Storable) (tiles : Int) (slots : Nat) : (stats.addTiles tiles slots).Storable := by
  unfold PageStats.addTiles
  split
  · exact h
  · obtain ⟨hlow, hhigh⟩ := clamp_mem (x := stats.fill + fillDelta tiles slots) (show 0 ≤ fillScale by decide)
    have hrange : minInt64 ≤ 0 ∧ fillScale ≤ maxInt64 := ⟨by decide, by decide⟩
    exact ⟨⟨hrange.1.trans hlow, hhigh.trans hrange.2⟩, h.frequency, h.lastAccess, h.hits⟩

/-- The statistics of a page once it has the least fill. -/
theorem Storable.filled (h : stats.Storable) :
    (if stats.fill ≤ 0 then { stats with fill := 1 } else stats).Storable ∧
      0 < (if stats.fill ≤ 0 then { stats with fill := 1 } else stats).fill := by
  split
  · exact ⟨⟨word_one, h.frequency, h.lastAccess, h.hits⟩, Int.one_pos⟩
  · rename_i hfill
    exact ⟨h, Int.not_le.mp hfill⟩

/-- Hits leave the frequency finite. -/
theorem Storable.addHits (h : stats.Storable) {hits : Nat} {created : Int} (hhits : hits ≤ maxUInt64) (hnow : Word now)
    (hcreated : Word created) : (stats.addHits hits now created).Storable := by
  have hlater : Word (max now created) := ⟨hnow.1.trans (le_max_left _ _), max_le hnow.2 hcreated.2⟩
  obtain ⟨hstats, hpos⟩ := h.filled
  unfold PageStats.addHits
  generalize (if stats.fill ≤ 0 then { stats with fill := 1 } else stats) = filled at hstats hpos ⊢
  obtain ⟨fill, hfill⟩ := Int.eq_ofNat_of_zero_le hpos.le
  obtain ⟨helapsed, helapsed'⟩ := clamp_mem (x := max now created - filled.lastAccess) (show 0 ≤ maxInt64 by decide)
  obtain ⟨minutes, hminutes⟩ := Int.eq_ofNat_of_zero_le helapsed
  have hfactor : filled.fillFactor = .ofNat fill / .ofNat 10000000 := by rw [fillFactor, hfill]; rfl
  have hword := hstats.fill.2
  rw [hfill] at hpos hword
  obtain ⟨hweight, hshare⟩ := light_weight hhits (Int.natCast_pos.mp hpos) hword
  refine ⟨hstats.fill, ?_, hlater, Nat.min_le_right _ _⟩
  change (if clamp 0 maxInt64 (max now created - filled.lastAccess) = 0 then _ else _ : Float).isFinite = true
  rw [hfactor]
  split
  · exact hweight.isFinite_add hstats.frequency
  · rename_i hlater
    rw [hminutes] at helapsed'
    have hminutes' : 0 < minutes := by omega
    change ((_ + _ / Float.ofInt (clamp 0 maxInt64 (max now created - filled.lastAccess))) / _ : Float).isFinite = true
    rw [hminutes]
    exact isFinite_half ((hshare hminutes' helapsed').isFinite_add hstats.frequency)

end PageStats

end TileDepot
