import Mathlib.Data.List.Induction
import Mathlib.Data.List.Infix
import TileDepot.Proofs.Fill

/-!
# How far the fill of a page drifts

The fill of a page is never below the part of a full page that its tiles take, for every change of it is rounded up. It may be
above: by less than a unit for each change that was rounded, and by the one unit that hits give to an empty page. What is cut
off at either end of the range only brings the fill nearer.
-/

namespace TileDepot

/-- A change of the statistics of a page. -/
inductive StatsUpdate where
  /-- Tiles that come, or go when negative. -/
  | tiles (count : Int)
  | hits (count : Nat) (now created : Int)
deriving Repr, DecidableEq, Inhabited

/-- The tiles that come with an update. -/
def StatsUpdate.change : StatsUpdate → Int
  | tiles count => count
  | hits _ _ _ => 0

namespace PageStats

/-- The tiles of a page after some updates, where there were none before. -/
def countOf (updates : List StatsUpdate) : Int := (updates.map StatsUpdate.change).sum

/-- The statistics of a page of `slots` tiles after an update. -/
def update (stats : PageStats) (slots : Nat) : StatsUpdate → PageStats
  | .tiles count => stats.addTiles count slots
  | .hits count now created => stats.addHits count now created

/-- The statistics of a page of `slots` tiles after some updates. -/
def updateAll (stats : PageStats) (slots : Nat) (updates : List StatsUpdate) : PageStats :=
  updates.foldl (fun stats change => stats.update slots change) stats

variable {stats : PageStats} {tiles : Int} {slots units : Nat}

/-- The fill exceeds the part of a full page that some tiles take by no more than a number of units. -/
def ExceedsBy (stats : PageStats) (units : Nat) (tiles : Int) (slots : Nat) : Prop :=
  stats.fill * slots ≤ tiles * fillScale + units * slots

/-- The fill is in its range, covers the tiles, and exceeds them by no more than a number of units. -/
structure Reports (stats : PageStats) (units : Nat) (tiles : Int) (slots : Nat) : Prop extends stats.InRange where
  covers : stats.Covers tiles slots
  exceeds : stats.ExceedsBy units tiles slots

/-- Fresh statistics report no tiles after no updates. -/
theorem reports_fresh (now : Int) (slots : Nat) : (fresh now).Reports 0 0 slots where
  toInRange := inRange_fresh now
  covers := (inRange_fresh now).covers_zero slots
  exceeds := by simp [ExceedsBy, fresh]

/-! ## One update -/

/-- A change of fill is rounded by less than a unit. -/
theorem fillDelta_mul_lt (tiles : Int) (hslots : 0 < slots) : fillDelta tiles slots * slots < tiles * fillScale + slots := by
  unfold fillDelta
  simp only
  generalize tiles * fillScale = change
  have hpos : (0 : Int) < slots := by omega
  split
  · have hfloor := Int.ediv_mul_le change (Int.ne_of_gt hpos)
    have hrest := Int.mul_ediv_add_emod change slots
    rename_i hround
    have hsome := Int.emod_nonneg change (Int.ne_of_gt hpos)
    rw [Int.add_mul, Int.one_mul]
    rw [Int.mul_comm] at hrest
    omega
  · rcases Int.le_total 0 change with hchange | hchange
    · rw [Int.tdiv_eq_ediv_of_nonneg hchange]
      have := Int.ediv_mul_le change (Int.ne_of_gt hpos)
      omega
    · -- a removal: what is dropped of a negative number is less than a unit, too
      have hneg : change.tdiv slots = -(-change / slots) := by
        rw [← Int.tdiv_eq_ediv_of_nonneg (by omega), Int.neg_tdiv, Int.neg_neg]
      have := Int.lt_ediv_add_one_mul_self (-change) hpos
      rw [Int.add_mul, Int.one_mul] at this
      rw [hneg, Int.neg_mul]
      omega

/-- One unit more is one unit more for every slot. -/
theorem succ_mul_slots (units slots : Nat) : ((units + 1 : Nat) : Int) * slots = units * slots + slots := by
  rw [Int.natCast_succ, Int.add_mul, Int.one_mul]

/-- Tiles that come and go add no more than a unit to the excess. -/
theorem ExceedsBy.addTiles (h : stats.ExceedsBy units tiles slots) (hslots : 0 < slots) (count : Int)
    (hleft : 0 ≤ tiles + count) : (stats.addTiles count slots).ExceedsBy (units + 1) (tiles + count) slots := by
  have hpos : (0 : Int) < slots := by omega
  have hnonneg : 0 ≤ (tiles + count) * fillScale := Int.mul_nonneg hleft fillScale_pos.le
  have hunits : 0 ≤ (units : Int) * slots := Int.mul_nonneg (Int.natCast_nonneg units) hpos.le
  have hscaled : (tiles + count) * fillScale = tiles * fillScale + count * fillScale := Int.add_mul _ _ _
  unfold ExceedsBy PageStats.addTiles at *
  rw [succ_mul_slots]
  split
  · rename_i hsame
    rcases hsame with hzero | ⟨-, hmore⟩ | ⟨hempty, -⟩
    · omega
    · have := Int.mul_nonneg hmore fillScale_pos.le
      omega
    · have := Int.mul_nonpos_of_nonpos_of_nonneg hempty hpos.le
      omega
  · have hdelta := fillDelta_mul_lt count hslots
    have hsum : (stats.fill + fillDelta count slots) * slots ≤ (tiles + count) * fillScale + (units * slots + slots) := by
      rw [Int.add_mul]
      omega
    simp only [Binary64.clamp]
    split
    · rw [Int.zero_mul]
      omega
    · split
      · rename_i hfull
        exact (Int.mul_le_mul_of_nonneg_right hfull.le hpos.le).trans hsum
      · exact hsum

/-- Hits add no more than the one unit that an empty page is given. -/
theorem ExceedsBy.addHits (h : stats.ExceedsBy units tiles slots) (htiles : 0 ≤ tiles) (hits : Nat) (now created : Int) :
    (stats.addHits hits now created).ExceedsBy (units + 1) tiles slots := by
  have hnonneg : 0 ≤ tiles * fillScale := Int.mul_nonneg htiles fillScale_pos.le
  have hunits : 0 ≤ (units : Int) * slots := Int.mul_nonneg (Int.natCast_nonneg units) (Int.natCast_nonneg slots)
  unfold ExceedsBy PageStats.addHits at *
  rw [succ_mul_slots]
  by_cases hfill : stats.fill ≤ 0
  · simp only [hfill, if_true]
    omega
  · simp only [hfill, if_false]
    omega

/-- An update adds no more than a unit to the excess, and takes nothing from what is covered. -/
theorem Reports.update (h : stats.Reports units tiles slots) (hslots : 0 < slots) {change : StatsUpdate}
    (hleft : 0 ≤ tiles + change.change) (hfull : tiles + change.change ≤ slots) :
    (stats.update slots change).Reports (units + 1) (tiles + change.change) slots := by
  cases change with
  | tiles count =>
    exact ⟨h.toInRange.addTiles count slots, h.covers.addTiles h.toInRange hslots count hfull,
      h.exceeds.addTiles hslots count hleft⟩
  | hits count now created =>
    simp only [StatsUpdate.change, Int.add_zero] at hleft ⊢
    exact ⟨h.toInRange.addHits count now created, h.covers.mono (fill_le_addHits stats count now created),
      h.exceeds.addHits hleft count now created⟩

/-! ## Any number of updates -/

/-- The count of tiles goes on from where it was. -/
theorem countOf_concat (updates : List StatsUpdate) (change : StatsUpdate) :
    countOf (updates ++ [change]) = countOf updates + change.change := by
  simp [countOf]

/-- The excess of a fresh page is no more than a unit for each update. -/
theorem reports_updateAll (now : Int) (hslots : 0 < slots) {updates : List StatsUpdate}
    (hcount : ∀ done, done <+: updates → 0 ≤ countOf done ∧ countOf done ≤ slots) :
    ((fresh now).updateAll slots updates).Reports updates.length (countOf updates) slots := by
  induction updates using List.reverseRecOn with
  | nil => exact reports_fresh now slots
  | append_singleton updates change ih =>
    have hbefore := ih fun done hdone => hcount done (hdone.trans (List.prefix_append updates [change]))
    obtain ⟨hleft, hfull⟩ := hcount _ List.prefix_rfl
    rw [countOf_concat] at hleft hfull
    rw [countOf_concat, updateAll, List.foldl_append, List.length_append]
    exact hbefore.update hslots hleft hfull

/-- As long as a page has no fewer tiles than none and no more than slots, its fill stays in its range, is never below the part
of a full page that its tiles take, and exceeds it by at most a unit for each update there was. -/
theorem fill_drifts_up (now : Int) {slots : Nat} (hslots : 1 ≤ slots) {updates : List StatsUpdate}
    (hcount : ∀ done, done <+: updates → 0 ≤ countOf done ∧ countOf done ≤ slots) :
    ∀ done, done <+: updates →
      let stats := (fresh now).updateAll slots done
      (0 ≤ stats.fill ∧ stats.fill ≤ fillScale) ∧
        countOf done * fillScale ≤ stats.fill * slots ∧
        stats.fill * slots ≤ countOf done * fillScale + done.length * slots := by
  intro done hdone
  have h := reports_updateAll now hslots fun first hfirst => hcount first (hfirst.trans hdone)
  exact ⟨⟨h.nonneg, h.le⟩, h.covers, h.exceeds⟩

/-- A tile comes to a page of three and goes again, and leaves a unit behind; the page is asked for, filled, and emptied but for
one tile. -/
theorem fill_drifts_up_on_three :
    let updates : List StatsUpdate := [.tiles 1, .tiles (-1), .hits 5 10 0, .tiles 3, .tiles (-2)]
    (∀ done, done <+: updates → 0 ≤ countOf done ∧ countOf done ≤ 3) ∧
      ((fresh 0).updateAll 3 [.tiles 1, .tiles (-1)]).fill = 1 ∧
      countOf updates = 1 ∧ ((fresh 0).updateAll 3 updates).fill = 3333334 ∧
      countOf updates * fillScale ≤ ((fresh 0).updateAll 3 updates).fill * (3 : Nat) ∧
      ((fresh 0).updateAll 3 updates).fill * (3 : Nat) ≤ countOf updates * fillScale + (5 : Nat) * (3 : Nat) := by
  intro updates
  have hinits : ∀ done ∈ updates.inits, 0 ≤ countOf done ∧ countOf done ≤ (3 : Nat) := by decide
  have hcount : ∀ done, done <+: updates → 0 ≤ countOf done ∧ countOf done ≤ (3 : Nat) := fun done hdone =>
    hinits done ((List.mem_inits done updates).mpr hdone)
  obtain ⟨-, hcovers, hexceeds⟩ := fill_drifts_up 0 (by decide) hcount updates List.prefix_rfl
  exact ⟨hcount, by decide, by decide, by decide, hcovers, hexceeds⟩

end PageStats

end TileDepot
