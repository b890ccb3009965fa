import TileDepot.Eviction.Sweep
import TileDepot.Proofs.Number.Errors

/-!
# What an estimate is worth

What is freed with a page is estimated in binary64 numbers: how full the page is, times the tiles of a full page, times the
average size of a tile. Nine roundings lie between the counts and the estimate, so that it is the exact product but for one
part in `2 ^ 49`, rounded up to whole bytes; where the page, its tiles or what is used come to nothing the estimate is zero.
-/

namespace TileDepot

open Binary64

/-- The average size of a tile, exactly. -/
def Usage.exactAverage (usage : Usage) : ℚ := if usage.tiles ≤ 0 then 0 else usage.used.bytes / usage.tiles

namespace Sweeper

/-- The bytes that go with a page if its tiles are of average size, exactly. -/
def exactEstimate (stats : PageStats) (slots : Nat) (usage : Usage) : ℚ :=
  stats.fill / fillScale * slots * usage.exactAverage

/-- Counts that words of the usual widths hold, none of them below zero but that of the tiles. -/
structure Countable (stats : PageStats) (slots : Nat) (usage : Usage) : Prop where
  fill : 0 ≤ stats.fill ∧ stats.fill < 2 ^ 63
  slots : slots < 2 ^ 64
  bytes : 0 ≤ usage.used.bytes ∧ usage.used.bytes < 2 ^ 127
  tiles : usage.tiles < 2 ^ 63

/-- Numbers are countable when they lie in their ranges. -/
theorem countable_iff {stats : PageStats} {slots : Nat} {usage : Usage} : Countable stats slots usage ↔
    (0 ≤ stats.fill ∧ stats.fill < 2 ^ 63) ∧ slots < 2 ^ 64 ∧ (0 ≤ usage.used.bytes ∧ usage.used.bytes < 2 ^ 127) ∧
      usage.tiles < 2 ^ 63 :=
  ⟨fun h => ⟨h.fill, h.slots, h.bytes, h.tiles⟩, fun ⟨hfill, hslots, hbytes, htiles⟩ => ⟨hfill, hslots, hbytes, htiles⟩⟩

instance (stats : PageStats) (slots : Nat) (usage : Usage) : Decidable (Countable stats slots usage) :=
  decidable_of_iff' _ countable_iff

/-- A whole number that is not negative is rounded once. -/
theorem tracks_intCast {n : ℤ} {bits : ℕ} (hnonneg : 0 ≤ n) (h : n < 2 ^ bits) (hbits : bits ≤ 300) :
    Tracks (.ofInt n) n 1 bits := by
  obtain ⟨count, rfl⟩ := Int.eq_ofNat_of_zero_le hnonneg
  have hcount : count ≤ 2 ^ bits := by exact_mod_cast h.le
  exact tracks_natCast hcount hbits

variable {stats : PageStats} {slots : Nat} {usage : Usage}

/-- The average size of a tile is rounded three times. -/
theorem tracks_averageSize (h : Countable stats slots usage) : Tracks usage.averageSize usage.exactAverage 3 190 := by
  unfold Usage.averageSize Usage.exactAverage
  split_ifs with hnone
  · exact Or.inl ⟨rfl, rfl⟩
  · have htiles : 0 < usage.tiles := Int.not_le.mp hnone
    exact (tracks_intCast h.bytes.1 h.bytes.2 (by norm_num)).div (tracks_intCast htiles.le h.tiles (by norm_num))
      (Int.cast_pos.mpr htiles) (by norm_num) (by norm_num)

/-- How full a page is: three roundings. -/
theorem tracks_fillFactor (h : Countable stats slots usage) : Tracks stats.fillFactor (stats.fill / fillScale) 3 87 := by
  have hscale : Tracks (.ofInt fillScale) fillScale 1 24 := tracks_intCast (by decide) (by decide) (by norm_num)
  exact (tracks_intCast h.fill.1 h.fill.2 (by norm_num)).div hscale (by norm_num [fillScale]) (by norm_num) (by norm_num)

/-- Nine roundings keep all but one part in `2 ^ 49`. -/
theorem keptPart_pow_nine : 1 - 2 ^ (-49 : ℤ) ≤ keptPart ^ 9 ∧ 1 ≤ keptPart ^ 9 * (1 + 2 ^ (-49 : ℤ)) := by
  unfold keptPart
  norm_num

/-- An estimate is what goes with the page but for one part in `2 ^ 49`, unless no word holds that, and less than a byte more. -/
theorem estimate_near (h : Countable stats slots usage) :
    min (exactEstimate stats slots usage * (1 - 2 ^ (-49 : ℤ))) maxInt128 ≤ estimate stats slots usage.averageSize ∧
      estimate stats slots usage.averageSize < exactEstimate stats slots usage * (1 + 2 ^ (-49 : ℤ)) + 1 := by
  have hproduct : Tracks (stats.fillFactor * Float.ofNat slots * usage.averageSize) (exactEstimate stats slots usage) 9 341 :=
    ((tracks_fillFactor h).mul (tracks_natCast h.slots.le (by norm_num)) (by norm_num) (by norm_num)).mul
      (tracks_averageSize h) (by norm_num) (by norm_num)
  have hlow : minInt128 ≤ 0 := by decide
  have hhigh : 0 ≤ maxInt128 := by decide
  obtain ⟨hleast, hmost⟩ := hproduct.toInt_up hlow hhigh
  have hnonneg := hproduct.nonneg
  obtain ⟨hkept, hkept'⟩ := keptPart_pow_nine
  constructor
  · exact (min_le_min_right _ (mul_le_mul_of_nonneg_left hkept hnonneg)).trans hleast
  · have hbound : exactEstimate stats slots usage ≤ exactEstimate stats slots usage * (1 + 2 ^ (-49 : ℤ)) * keptPart ^ 9 := by
      rw [mul_assoc, mul_comm _ (keptPart ^ 9)]
      exact le_mul_of_one_le_right hnonneg hkept'
    exact sub_lt_iff_lt_add.mp (lt_of_mul_lt_mul_right (hmost.trans_le hbound) (pow_nonneg keptPart_pos.le 9))

end Sweeper

end TileDepot
