import Mathlib.Tactic.Linarith
import TileDepot.Page.Stats

/-!
# The fill of a page

The fill of a page is changed by fractions that are rounded up, and cut down to the range from none to full. A page with
`tiles` of `slots` tiles therefore never has less fill than `tiles / slots` of a full page, as long as it has no more tiles
than it has slots.
-/

namespace TileDepot

/-- A full page has units of fill. -/
theorem fillScale_pos : 0 < fillScale := by decide

namespace PageStats

/-- The fill lies between none and full. -/
structure InRange (stats : PageStats) : Prop where
  nonneg : 0 ≤ stats.fill
  le : stats.fill ≤ fillScale

/-- The fill is at least the part of a full page that some tiles take. -/
def Covers (stats : PageStats) (tiles : Int) (slots : Nat) : Prop := tiles * fillScale ≤ stats.fill * slots

/-- The fill of fresh statistics is in range. -/
theorem inRange_fresh (now : Int) : (fresh now).InRange := ⟨Int.le_refl 0, fillScale_pos.le⟩

/-- The fill of an emptied page is in range. -/
theorem InRange.truncated {stats : PageStats} : stats.truncated.InRange := ⟨Int.le_refl 0, fillScale_pos.le⟩

/-- The fill stays in range when tiles come or go. -/
theorem InRange.addTiles {stats : PageStats} (h : stats.InRange) (tiles : Int) (slots : Nat) :
    (stats.addTiles tiles slots).InRange := by
  unfold PageStats.addTiles
  split
  · exact h
  · exact ⟨(Binary64.clamp_mem (by decide)).1, (Binary64.clamp_mem (by decide)).2⟩

/-- The fill stays in range when hits are recorded. -/
theorem InRange.addHits {stats : PageStats} (h : stats.InRange) (hits : Nat) (now created : Int) :
    (stats.addHits hits now created).InRange := by
  unfold PageStats.addHits
  by_cases hfill : stats.fill ≤ 0
  · simp only [hfill, if_true]
    exact ⟨Int.zero_le_ofNat 1, fillScale_pos⟩
  · simp only [hfill, if_false]
    exact ⟨h.nonneg, h.le⟩

/-- No tiles are covered by any fill. -/
theorem InRange.covers_zero {stats : PageStats} (h : stats.InRange) (slots : Nat) : stats.Covers 0 slots := by
  unfold Covers
  rw [Int.zero_mul]
  exact Int.mul_nonneg h.nonneg (Int.natCast_nonneg slots)

/-- More fill covers as much. -/
theorem Covers.mono {stats stats' : PageStats} {tiles : Int} {slots : Nat} (h : stats.Covers tiles slots)
    (hfill : stats.fill ≤ stats'.fill) : stats'.Covers tiles slots :=
  Int.le_trans h (Int.mul_le_mul_of_nonneg_right hfill (Int.natCast_nonneg slots))

/-- A page with a tile has fill. -/
theorem Covers.fill_pos {stats : PageStats} {tiles : Int} {slots : Nat} (h : stats.Covers tiles slots) (htiles : 0 < tiles) :
    0 < stats.fill := by
  have hpos : 0 < stats.fill * (slots : Int) := Int.lt_of_lt_of_le (Int.mul_pos htiles fillScale_pos) h
  by_contra hfill
  have := Int.mul_nonpos_of_nonpos_of_nonneg (Int.not_lt.mp hfill) (Int.natCast_nonneg slots)
  omega

/-- Hits never take fill away. -/
theorem fill_le_addHits (stats : PageStats) (hits : Nat) (now created : Int) :
    stats.fill ≤ (stats.addHits hits now created).fill := by
  unfold PageStats.addHits
  by_cases hfill : stats.fill ≤ 0
  · simp only [hfill, if_true]
    omega
  · simp only [hfill, if_false]
    exact Int.le_refl _

/-- A change of fill is rounded up. -/
theorem le_fillDelta (tiles : Int) {slots : Nat} (hslots : 0 < slots) : tiles * fillScale ≤ fillDelta tiles slots * slots := by
  unfold fillDelta
  simp only
  generalize tiles * fillScale = units
  have hpos : (0 : Int) < slots := by omega
  split
  · have := Int.lt_ediv_add_one_mul_self units hpos
    omega
  · rename_i hround
    rcases lt_or_ge 0 units with hunits | hunits
    · -- nothing to round: the units are shared out evenly
      have hdvd : units % slots = 0 := by
        by_contra hrest
        exact hround ⟨hunits, hrest⟩
      rw [Int.tdiv_eq_ediv_of_nonneg (Int.le_of_lt hunits)]
      have := Int.mul_ediv_add_emod units slots
      rw [hdvd, Int.add_zero, Int.mul_comm] at this
      omega
    · -- a removal: dropping the fraction of a negative number rounds it up
      have hneg : units.tdiv slots = -(-units / slots) := by
        rw [← Int.tdiv_eq_ediv_of_nonneg (by omega), Int.neg_tdiv, Int.neg_neg]
      have := Int.ediv_mul_le (-units) (Int.ne_of_gt hpos)
      rw [hneg, Int.neg_mul]
      omega

/-- Tiles that come and go keep a page covered, as long as it has no more tiles than slots. -/
theorem Covers.addTiles {stats : PageStats} {count : Int} {slots : Nat} (h : stats.Covers count slots) (hrange : stats.InRange)
    (hslots : 0 < slots) (tiles : Int) (hfull : count + tiles ≤ slots) :
    (stats.addTiles tiles slots).Covers (count + tiles) slots := by
  have hfits : (count + tiles) * fillScale ≤ fillScale * slots := by
    rw [Int.mul_comm fillScale]
    exact Int.mul_le_mul_of_nonneg_right hfull fillScale_pos.le
  have hpos : (0 : Int) < slots := by omega
  unfold Covers PageStats.addTiles at *
  split
  · rename_i hsame
    rcases hsame with hzero | ⟨hsaturated, -⟩ | ⟨hempty, hremoval⟩
    · omega
    · have : stats.fill = fillScale := Int.le_antisymm hrange.le hsaturated
      rwa [this]
    · -- an empty page has no tiles to lose
      have hnone : stats.fill = 0 := Int.le_antisymm hempty hrange.nonneg
      rw [hnone, Int.zero_mul] at h ⊢
      have : (count + tiles) * fillScale = count * fillScale + tiles * fillScale := Int.add_mul _ _ _
      have := Int.mul_nonpos_of_nonpos_of_nonneg hremoval fillScale_pos.le
      omega
  · simp only [Binary64.clamp]
    have hdelta := le_fillDelta tiles hslots
    have hsum : (count + tiles) * fillScale ≤ (stats.fill + fillDelta tiles slots) * slots := by
      rw [Int.add_mul, Int.add_mul]
      omega
    split
    · rename_i hbelow
      have := Int.mul_le_mul_of_nonneg_right (Int.le_of_lt hbelow) hpos.le
      omega
    · split
      · exact hfits
      · exact hsum

end PageStats

end TileDepot
