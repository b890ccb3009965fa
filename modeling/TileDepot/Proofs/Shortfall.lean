import TileDepot.Proofs.Ledger

/-!
# Usage and the order of what is recorded

A usage is cut off at zero each time something is recorded. What is cut off is never made up for, so the usage that is left in
the end is above the sum of what was recorded by the shortfall: how far below zero the running totals would have come at the
most. Two orders of the same records leave the same usage exactly when they have the same shortfall. All of this is as long as
words have room for the totals: a total that wraps around is cut off like one that is below zero.
-/

namespace TileDepot

/-! ## Counts cut off at zero -/

/-- A count after some changes, each of which leaves it at zero at least. -/
def cutOff (count : Int) (changes : List Int) : Int := changes.foldl (fun count change => max (count + change) 0) count

/-- Whether a word of so many bits has room for what a count comes to with every change, before it is cut off. -/
def Stays (bits : Nat) : Int → List Int → Prop
  | _, [] => True
  | count, change :: changes => Word.Fits bits (count + change) ∧ Stays bits (max (count + change) 0) changes

instance decidableStays (bits : Nat) : (count : Int) → (changes : List Int) → Decidable (Stays bits count changes)
  | _, [] => isTrue trivial
  | count, change :: changes =>
    haveI := decidableStays bits (max (count + change) 0) changes
    inferInstanceAs (Decidable (_ ∧ _))

/-- The lowest that a count comes to in the course of some changes when nothing is cut off. -/
def lowest : Int → List Int → Int
  | count, [] => count
  | count, change :: changes => min count (lowest (count + change) changes)

/-- How far below zero a count comes at the most when nothing is cut off. -/
def shortfall (count : Int) (changes : List Int) : Int := max (-lowest count changes) 0

/-- The lowest is the least of the running totals. -/
theorem le_lowest_iff {bound count : Int} {changes : List Int} :
    bound ≤ lowest count changes ↔ ∀ before, before <+: changes → bound ≤ count + before.sum := by
  induction changes generalizing count with
  | nil => simp [lowest]
  | cons change changes ih =>
    rw [lowest, le_min_iff, ih]
    constructor
    · rintro ⟨hcount, hrest⟩ before hbefore
      rcases List.prefix_cons_iff.mp hbefore with rfl | ⟨tail, rfl, htail⟩
      · simpa using hcount
      · rw [List.sum_cons, ← Int.add_assoc]
        exact hrest tail htail
    · intro h
      refine ⟨by simpa using h [] List.nil_prefix, fun tail htail => ?_⟩
      rw [Int.add_assoc, ← List.sum_cons]
      exact h _ (List.cons_prefix_cons.mpr ⟨rfl, htail⟩)

/-- There is no shortfall exactly when no running total is below zero. -/
theorem shortfall_eq_zero_iff {count : Int} {changes : List Int} :
    shortfall count changes = 0 ↔ ∀ before, before <+: changes → 0 ≤ count + before.sum := by
  rw [← le_lowest_iff, shortfall]
  omega

/-- The lowest total is at most the one at the start. -/
theorem lowest_le (count : Int) (changes : List Int) : lowest count changes ≤ count := by
  cases changes with
  | nil => exact Int.le_refl count
  | cons change changes => exact Int.min_le_left _ _

/-- A count that starts higher is higher all the way. -/
theorem lowest_add (count more : Int) (changes : List Int) : lowest (count + more) changes = lowest count changes + more := by
  induction changes generalizing count with
  | nil => rfl
  | cons change changes ih =>
    rw [lowest, lowest, Int.add_right_comm, ih]
    omega

/-- What is cut off adds up to the shortfall. -/
theorem cutOff_eq {count : Int} (h : 0 ≤ count) (changes : List Int) :
    cutOff count changes = count + changes.sum + shortfall count changes := by
  induction changes generalizing count with
  | nil =>
    have hnone : shortfall count [] = 0 := shortfall_eq_zero_iff.mpr (by simpa using h)
    simp [cutOff, hnone]
  | cons change changes ih =>
    have hstep : cutOff count (change :: changes) = cutOff (max (count + change) 0) changes := rfl
    rw [hstep, ih (Int.le_max_right _ _), List.sum_cons, shortfall, shortfall, lowest]
    rcases Int.le_total 0 (count + change) with hstays | hfalls
    · rw [Int.max_eq_left hstays]
      omega
    · -- the count starts again at zero, so it lies that much higher from then on
      have hlower := lowest_le (count + change) changes
      have hshift := lowest_add (count + change) (-(count + change)) changes
      rw [Int.add_right_neg] at hshift
      rw [Int.max_eq_right hfalls, hshift]
      omega

/-! ## Records on the pages of a tile set -/

/-- What is recorded on a page of a tile set: tiles and bytes that come, or go when negative. -/
structure Posting where
  page : Page
  tiles : Int
  slots : Nat
  bytes : Int
  now : Int

/-- The shortfalls of a usage, in bytes and in tiles, when some things are recorded one after the other. -/
def Usage.shortfalls (usage : Usage) (postings : List Posting) : Int × Int :=
  (shortfall usage.used.bytes (postings.map Posting.bytes), shortfall usage.tiles (postings.map Posting.tiles))

/-- Words have room for what a usage comes to when some things are recorded one after the other. -/
structure Usage.RoomFor (usage : Usage) (postings : List Posting) : Prop where
  bytes : Stays 128 usage.used.bytes (postings.map Posting.bytes)
  tiles : Stays 64 usage.tiles (postings.map Posting.tiles)

namespace Ledger

variable {ledger : Ledger} {set : TileSet}

/-- The ledger after something has been recorded for a tile set. -/
def post (set : TileSet) (ledger : Ledger) (posting : Posting) : Ledger :=
  (ledger.addTiles set posting.page posting.tiles posting.slots posting.bytes posting.now).2

/-- The ledger after things have been recorded for a tile set one after the other. -/
def postAll (ledger : Ledger) (set : TileSet) (postings : List Posting) : Ledger := postings.foldl (post set) ledger

/-- As long as words have room for it, what is recorded is added and cut off at zero. -/
theorem usageOf_post {posting : Posting} {postings : List Posting} (hroom : (ledger.usageOf set.id).RoomFor (posting :: postings)) :
    (post set ledger posting).usageOf set.id = (ledger.usageOf set.id).record posting.tiles posting.bytes := by
  rw [post, addTiles, usageOf_addTilesBy, if_pos rfl, Usage.recordInWords_of_fits hroom.bytes.1 hroom.tiles.1]

/-- There is room for the rest once the first thing has been recorded. -/
theorem roomFor_post {posting : Posting} {postings : List Posting} (hroom : (ledger.usageOf set.id).RoomFor (posting :: postings)) :
    ((post set ledger posting).usageOf set.id).RoomFor postings := by
  rw [usageOf_post hroom]
  refine ⟨?_, hroom.tiles.2⟩
  rw [Usage.used_record, ByteSize.bytes_ofBytes]
  exact hroom.bytes.2

/-- Once something has been recorded, bytes and tiles are cut off at zero each for itself, and the size used is stated in the unit
that fits it. -/
theorem usageOf_postAll {posting : Posting} {postings : List Posting}
    (hroom : (ledger.usageOf set.id).RoomFor (posting :: postings)) :
    (ledger.postAll set (posting :: postings)).usageOf set.id =
      ⟨.ofBytes (cutOff (ledger.usageOf set.id).used.bytes ((posting :: postings).map Posting.bytes)),
        cutOff (ledger.usageOf set.id).tiles ((posting :: postings).map Posting.tiles)⟩ := by
  induction postings generalizing ledger posting with
  | nil =>
    have hused := Usage.used_record (ledger.usageOf set.id) posting.tiles posting.bytes
    exact (usageOf_post hroom).trans (congrArg (Usage.mk · _) hused)
  | cons next postings ih =>
    have hrest := ih (roomFor_post hroom)
    rw [usageOf_post hroom, Usage.used_record, ByteSize.bytes_ofBytes] at hrest
    exact hrest

/-- What is left is what there was, the sum of what was recorded, and the shortfall. -/
theorem totals_postAll (hbytes : 0 ≤ (ledger.usageOf set.id).used.bytes) (htiles : 0 ≤ (ledger.usageOf set.id).tiles)
    {postings : List Posting} (hroom : (ledger.usageOf set.id).RoomFor postings) :
    ((ledger.postAll set postings).usageOf set.id).used.bytes = (ledger.usageOf set.id).used.bytes +
        (postings.map Posting.bytes).sum + ((ledger.usageOf set.id).shortfalls postings).1 ∧
      ((ledger.postAll set postings).usageOf set.id).tiles = (ledger.usageOf set.id).tiles +
        (postings.map Posting.tiles).sum + ((ledger.usageOf set.id).shortfalls postings).2 := by
  have hbytes' := cutOff_eq hbytes (postings.map Posting.bytes)
  have htiles' := cutOff_eq htiles (postings.map Posting.tiles)
  cases postings with
  | nil => exact ⟨hbytes', htiles'⟩
  | cons posting postings =>
    rw [usageOf_postAll hroom, ByteSize.bytes_ofBytes]
    exact ⟨hbytes', htiles'⟩

/-- As long as words have room for the totals of both, two orders of the same records leave the same usage exactly when they have
the same shortfalls; what is left is what there was, the sum of what was recorded, and the shortfall. -/
theorem same_usage_iff_same_shortfalls {postings postings' : List Posting} (hperm : postings.Perm postings')
    (hbytes : 0 ≤ (ledger.usageOf set.id).used.bytes) (htiles : 0 ≤ (ledger.usageOf set.id).tiles)
    (hroom : (ledger.usageOf set.id).RoomFor postings) (hroom' : (ledger.usageOf set.id).RoomFor postings') :
    ((ledger.postAll set postings).usageOf set.id = (ledger.postAll set postings').usageOf set.id ↔
      (ledger.usageOf set.id).shortfalls postings = (ledger.usageOf set.id).shortfalls postings') ∧
      ((ledger.postAll set postings).usageOf set.id).used.bytes = (ledger.usageOf set.id).used.bytes +
        (postings.map Posting.bytes).sum + ((ledger.usageOf set.id).shortfalls postings).1 ∧
      ((ledger.postAll set postings).usageOf set.id).tiles = (ledger.usageOf set.id).tiles +
        (postings.map Posting.tiles).sum + ((ledger.usageOf set.id).shortfalls postings).2 := by
  obtain ⟨hused, hcount⟩ := totals_postAll hbytes htiles hroom
  obtain ⟨hused', hcount'⟩ := totals_postAll hbytes htiles hroom'
  refine ⟨?_, hused, hcount⟩
  rw [← (hperm.map _).sum_eq] at hused' hcount'
  constructor
  · intro hsame
    rw [hsame] at hused hcount
    exact Prod.ext (by omega) (by omega)
  · intro hsame
    rw [← hsame] at hused' hcount'
    have hbytes' := hused.trans hused'.symm
    -- the units agree, too: both are those that fit the bytes, unless nothing was recorded at all
    cases postings with
    | nil => rw [hperm.nil_eq]
    | cons posting postings =>
      cases postings' with
      | nil => exact absurd hperm.symm.nil_eq (List.cons_ne_nil _ _).symm
      | cons posting' postings' =>
        have htiles' := hcount.trans hcount'.symm
        rw [usageOf_postAll hroom, usageOf_postAll hroom'] at hbytes' htiles' ⊢
        rw [ByteSize.bytes_ofBytes, ByteSize.bytes_ofBytes] at hbytes'
        exact congrArg₂ Usage.mk (congrArg ByteSize.ofBytes hbytes') htiles'

/-- Two tiles come and one of them goes: where it goes last, nothing is cut off in either order. -/
theorem same_usage_of_gone_last :
    let set := TileSet.of "roads" "grid" "png" none
    let page : Page := ⟨set.id, 0, 0, 3, 0⟩
    let small : Posting := ⟨page, 1, 4, 3, 0⟩
    let large : Posting := ⟨page, 1, 4, 5, 0⟩
    let gone : Posting := ⟨page, -1, 4, -5, 0⟩
    (empty.postAll set [small, large, gone]).usageOf set.id = (empty.postAll set [large, small, gone]).usageOf set.id := by
  intro set page small large gone
  have hnone : empty.usageOf set.id = .none := by simp [usageOf, empty]
  refine ((same_usage_iff_same_shortfalls (List.Perm.swap large small [gone]) ?_ ?_ ?_ ?_).1).mpr ?_ <;> rw [hnone]
  · decide
  · decide
  · exact ⟨by decide, by decide⟩
  · exact ⟨by decide, by decide⟩
  · decide

/-- The usage of an empty ledger after some things have been recorded, in bytes and in tiles. -/
def usageAfter (set : TileSet) (postings : List Posting) : Int × Int :=
  (((empty.postAll set postings).usageOf set.id).used.bytes, ((empty.postAll set postings).usageOf set.id).tiles)

/-- A tile that goes before it has come is not made up for: what its coming adds stays, though in the other order nothing is
left. And as many tiles as a word has room for are lost with one more, unless they have gone before it comes. In each case the
totals of neither order are below zero in the end, and those of the latter never are. -/
theorem usage_depends_on_order :
    let set := TileSet.of "roads" "grid" "png" none
    let posting (tiles bytes : Int) : Posting := ⟨⟨set.id, 0, 0, 3, 0⟩, tiles, 4, bytes, 0⟩
    let comes := posting 1 5
    let goes := posting (-1) (-5)
    let many := posting (2 ^ 63 - 1) 0
    let one := posting 1 0
    let fewer := posting (-(2 ^ 63 - 1)) 0
    [comes, goes].Perm [goes, comes] ∧ [many, one, fewer].Perm [many, fewer, one] ∧
      usageAfter set [comes, goes] = (0, 0) ∧ usageAfter set [goes, comes] = (5, 1) ∧
      usageAfter set [many, one, fewer] = (0, 0) ∧ usageAfter set [many, fewer, one] = (0, 1) ∧
      Usage.none.shortfalls [many, one, fewer] = (0, 0) ∧ Usage.none.shortfalls [many, fewer, one] = (0, 0) := by
  intro set posting comes goes many one fewer
  exact ⟨List.Perm.swap goes comes [], (List.Perm.swap fewer one []).cons many, by decide +kernel⟩

end Ledger

end TileDepot
