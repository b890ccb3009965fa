import Mathlib.Algebra.Order.Field.Power
import Mathlib.Algebra.Order.Floor.Semiring
import Mathlib.Data.Int.Log
import Mathlib.Data.Rat.Floor
import Mathlib.Tactic.FieldSimp
import Mathlib.Tactic.Linarith
import Mathlib.Tactic.NormNum
import TileDepot.Number.Binary64

/-!
# Rounding to binary64

The arithmetic of binary64 numbers keeps the whole part of a result and how the rest compares with a half, drops digits until
53 are left, and rounds. What comes out is a function of the exact result alone, a monotone one. Only results far from the
ends of the range are considered: sizes and their quotients are nowhere near them.
-/

namespace TileDepot.Binary64

open Float.Model Float.Model.UnpackedFloat

/-! ## The nearest whole number -/

/-- The whole number nearest to a fraction, a half to the even neighbour. -/
def nearest (x : ℚ) : ℕ :=
  if 2 * (x - ⌊x⌋₊) < 1 then ⌊x⌋₊
  else if 1 < 2 * (x - ⌊x⌋₊) then ⌊x⌋₊ + 1
  else ⌊x⌋₊ + ⌊x⌋₊ % 2

/-- The nearest whole number is not below the floor. -/
theorem floor_le_nearest (x : ℚ) : ⌊x⌋₊ ≤ nearest x := by
  unfold nearest
  split_ifs <;> omega

/-- The nearest whole number is at most one above the floor. -/
theorem nearest_le_floor_succ (x : ℚ) : nearest x ≤ ⌊x⌋₊ + 1 := by
  unfold nearest
  split_ifs <;> omega

/-- A whole number is nearest to itself. -/
theorem nearest_natCast (n : ℕ) : nearest n = n := by
  simp [nearest]

/-- The greater number has no lesser nearest whole number. -/
theorem nearest_mono {x y : ℚ} (h : x ≤ y) : nearest x ≤ nearest y := by
  rcases (Nat.floor_mono h).lt_or_eq with hlt | heq
  · exact (nearest_le_floor_succ x).trans (hlt.trans_le (floor_le_nearest y))
  · unfold nearest
    rw [heq]
    split_ifs <;> first | omega | linarith

/-- What an accuracy says of the rest beyond the whole part. -/
def Tells : Accuracy → ℚ → Prop
  | .exact, rest => rest = 0
  | .inexact .lt, rest => 0 < rest ∧ rest < 1 / 2
  | .inexact .eq, rest => rest = 1 / 2
  | .inexact .gt, rest => 1 / 2 < rest ∧ rest < 1

/-- What is left of a number when its whole part is taken is less than one. -/
theorem Tells.bounds {accuracy : Accuracy} {rest : ℚ} (h : Tells accuracy rest) : 0 ≤ rest ∧ rest < 1 := by
  match accuracy, h with
  | .exact, h => rw [h]; norm_num
  | .inexact .lt, h => exact ⟨h.1.le, by linarith [h.2]⟩
  | .inexact .eq, h => rw [h]; norm_num
  | .inexact .gt, h => exact ⟨by linarith [h.1], h.2⟩

/-- The whole part of which the rest is told is the floor. -/
theorem Tells.floor_eq {mantissa : ℕ} {accuracy : Accuracy} {x : ℚ} (h : Tells accuracy (x - mantissa)) : ⌊x⌋₊ = mantissa := by
  obtain ⟨hnonneg, hlt⟩ := h.bounds
  have hm : (0 : ℚ) ≤ mantissa := Nat.cast_nonneg mantissa
  rw [Nat.floor_eq_iff (by linarith)]
  exact ⟨by linarith, by linarith⟩

/-- Rounding by the accuracy is rounding to the nearest whole number. -/
theorem Tells.roundToNearestEven {mantissa : ℕ} {accuracy : Accuracy} {x : ℚ} (h : Tells accuracy (x - mantissa)) :
    accuracy.roundToNearestEven mantissa = nearest x := by
  have hfloor := h.floor_eq
  unfold nearest
  rw [hfloor]
  match accuracy, h with
  | .exact, h =>
    rw [if_pos (by linarith [show x - mantissa = 0 from h])]
    rfl
  | .inexact .lt, h =>
    rw [if_pos (by linarith [h.2])]
    rfl
  | .inexact .eq, h =>
    have hhalf : x - mantissa = 1 / 2 := h
    rw [if_neg (by linarith), if_neg (by linarith)]
    rfl
  | .inexact .gt, h =>
    rw [if_neg (by linarith [h.1]), if_pos (by linarith [h.1])]
    rfl

/-! ## Dropping digits -/

/-- An extended mantissa that stands for a fraction. -/
def Reads (extended : ExtendedMantissa) (x : ℚ) : Prop := Tells extended.accuracy (x - extended.mantissa)

/-- A mantissa that is read with two more digits rounds to the nearest whole number. -/
theorem Reads.roundedMantissa {extended : ExtendedMantissa} {x : ℚ} (h : Reads extended x) :
    extended.roundedMantissa = nearest x := Tells.roundToNearestEven h

/-- A whole part and what is told of the rest make such a mantissa. -/
theorem reads_ofMantissaAndAccuracy {mantissa : ℕ} {accuracy : Accuracy} {x : ℚ} (h : Tells accuracy (x - mantissa)) :
    Reads (.ofMantissaAndAccuracy mantissa accuracy) x := by
  match accuracy, h with
  | .exact, h | .inexact .lt, h | .inexact .eq, h | .inexact .gt, h => exact h

/-- A digit that is zero is dropped. -/
theorem Reads.shiftRightOne_of_even {mantissa : ℕ} {round sticky : Bool} {x : ℚ} (h : Reads ⟨2 * mantissa, round, sticky⟩ x) :
    Reads ⟨mantissa, false, round || sticky⟩ (x / 2) := by
  match round, sticky, h with
  | false, false, h =>
    have hexact : x - (2 * mantissa : ℕ) = 0 := h
    push_cast at hexact
    exact (by linarith : x / 2 - mantissa = 0)
  | false, true, h =>
    obtain ⟨hpos, hlt⟩ := h
    push_cast at hpos hlt
    exact ⟨by linarith, by linarith⟩
  | true, false, h =>
    have hhalf : x - (2 * mantissa : ℕ) = 1 / 2 := h
    push_cast at hhalf
    exact ⟨by linarith, by linarith⟩
  | true, true, h =>
    obtain ⟨hpos, hlt⟩ := h
    push_cast at hpos hlt
    exact ⟨by linarith, by linarith⟩

/-- A digit that is one is dropped. -/
theorem Reads.shiftRightOne_of_odd {mantissa : ℕ} {round sticky : Bool} {x : ℚ}
    (h : Reads ⟨2 * mantissa + 1, round, sticky⟩ x) : Reads ⟨mantissa, true, round || sticky⟩ (x / 2) := by
  match round, sticky, h with
  | false, false, h =>
    have hexact : x - (2 * mantissa + 1 : ℕ) = 0 := h
    push_cast at hexact
    exact (by linarith : x / 2 - mantissa = 1 / 2)
  | false, true, h =>
    obtain ⟨hpos, hlt⟩ := h
    push_cast at hpos hlt
    exact ⟨by linarith, by linarith⟩
  | true, false, h =>
    have hhalf : x - (2 * mantissa + 1 : ℕ) = 1 / 2 := h
    push_cast at hhalf
    exact ⟨by linarith, by linarith⟩
  | true, true, h =>
    obtain ⟨hpos, hlt⟩ := h
    push_cast at hpos hlt
    exact ⟨by linarith, by linarith⟩

/-- One digit less. -/
theorem Reads.shiftRightOne {extended : ExtendedMantissa} {x : ℚ} (h : Reads extended x) :
    Reads extended.shiftRightOne (x / 2) := by
  rcases extended with ⟨mantissa, round, sticky⟩
  obtain ⟨half, rfl | rfl⟩ := Nat.even_or_odd' mantissa
  · have hdigit : ExtendedMantissa.shiftRightOne ⟨2 * half, round, sticky⟩ = ⟨half, false, round || sticky⟩ := by
      simp [ExtendedMantissa.shiftRightOne]
    rw [hdigit]
    exact h.shiftRightOne_of_even
  · have hdigit : ExtendedMantissa.shiftRightOne ⟨2 * half + 1, round, sticky⟩ = ⟨half, true, round || sticky⟩ := by
      simp [ExtendedMantissa.shiftRightOne, Nat.add_mod]
      omega
    rw [hdigit]
    exact h.shiftRightOne_of_odd

/-- A shift to the right is read as a division by a power of two. -/
theorem Reads.shiftRight {extended : ExtendedMantissa} {x : ℚ} (h : Reads extended x) (n : ℕ) :
    Reads (extended >>> n) (x / 2 ^ n) := by
  change Reads (n.repeat ExtendedMantissa.shiftRightOne extended) _
  induction n with
  | zero => simpa [Nat.repeat] using h
  | succ n ih =>
    rw [pow_succ, ← div_div]
    exact ih.shiftRightOne

/-! ## The nearest number -/

/-- The exponent at which 53 digits are left before the point. -/
def exponentOf (x : ℚ) : ℤ := Int.log 2 x - 52

/-- Mantissa and exponent of the number nearest to a positive one, at 53 digits whatever the exponent. -/
def rounded (x : ℚ) : ℕ × ℤ :=
  if nearest (x / 2 ^ exponentOf x) = 2 ^ 53 then (2 ^ 52, exponentOf x + 1)
  else (nearest (x / 2 ^ exponentOf x), exponentOf x)

/-- The order of mantissas of 53 digits with their exponents. -/
def NotAbove (a b : ℕ × ℤ) : Prop := a.2 < b.2 ∨ a.2 = b.2 ∧ a.1 ≤ b.1

/-- A positive number scaled by its exponent has 53 digits before the point. -/
theorem scaled_bounds {x : ℚ} (hx : 0 < x) : 2 ^ 52 ≤ x / 2 ^ exponentOf x ∧ x / 2 ^ exponentOf x < 2 ^ 53 := by
  have hpos : (0 : ℚ) < 2 ^ exponentOf x := by positivity
  have hlow := Int.zpow_log_le_self (b := 2) Nat.one_lt_two hx
  have hhigh := Int.lt_zpow_succ_log_self (b := 2) Nat.one_lt_two x
  rw [le_div_iff₀ hpos, div_lt_iff₀ hpos, ← zpow_natCast, ← zpow_natCast, ← zpow_add₀ two_ne_zero, ← zpow_add₀ two_ne_zero]
  constructor
  · convert hlow using 2
    · rfl
    · unfold exponentOf
      omega
  · convert hhigh using 2
    · rfl
    · unfold exponentOf
      omega

/-- So has its nearest whole number, unless it is the next power of two. -/
theorem nearest_scaled_bounds {x : ℚ} (hx : 0 < x) :
    2 ^ 52 ≤ nearest (x / 2 ^ exponentOf x) ∧ nearest (x / 2 ^ exponentOf x) ≤ 2 ^ 53 := by
  obtain ⟨hlow, hhigh⟩ := scaled_bounds hx
  constructor
  · rw [← nearest_natCast (2 ^ 52)]
    exact nearest_mono (by exact_mod_cast hlow)
  · rw [← nearest_natCast (2 ^ 53)]
    exact nearest_mono (by exact_mod_cast hhigh.le)

/-- A rounded number has a mantissa of 53 digits. -/
theorem rounded_bounds {x : ℚ} (hx : 0 < x) : 2 ^ 52 ≤ (rounded x).1 ∧ (rounded x).1 < 2 ^ 53 := by
  obtain ⟨hlow, hhigh⟩ := nearest_scaled_bounds hx
  unfold rounded
  split_ifs with h
  · exact ⟨le_rfl, by norm_num⟩
  · exact ⟨hlow, lt_of_le_of_ne hhigh h⟩

/-- Rounding raises the exponent by one at the most. -/
theorem rounded_exponent_bounds (x : ℚ) : exponentOf x ≤ (rounded x).2 ∧ (rounded x).2 ≤ exponentOf x + 1 := by
  unfold rounded
  split_ifs
  · exact ⟨by omega, le_rfl⟩
  · exact ⟨le_rfl, by omega⟩

/-- Rounding is monotone. -/
theorem rounded_mono {x y : ℚ} (hx : 0 < x) (h : x ≤ y) : NotAbove (rounded x) (rounded y) := by
  have hy := hx.trans_le h
  have hexp : exponentOf x ≤ exponentOf y := Int.sub_le_sub_right (Int.log_mono_right hx h) 52
  rcases hexp.lt_or_eq with hlt | heq
  · -- The exponents differ, so that a carry on the left at most levels them.
    obtain ⟨hlow, -⟩ := nearest_scaled_bounds hy
    unfold rounded NotAbove
    split_ifs
    · exact Or.inl (Int.add_lt_add_right hlt 1)
    · rcases (Int.add_one_le_iff.mpr hlt).lt_or_eq with hlt' | heq'
      · exact Or.inl hlt'
      · exact Or.inr ⟨heq', hlow⟩
    · exact Or.inl (by dsimp only; omega)
    · exact Or.inl hlt
  · have hmantissa : nearest (x / 2 ^ exponentOf x) ≤ nearest (y / 2 ^ exponentOf y) := by
      rw [heq]
      exact nearest_mono (div_le_div_of_nonneg_right h (by positivity))
    obtain ⟨-, hhigh⟩ := nearest_scaled_bounds hy
    unfold rounded NotAbove
    split_ifs with hcarry hcarry'
    · exact Or.inr ⟨by dsimp only; omega, le_rfl⟩
    · exact absurd (hhigh.antisymm (hcarry ▸ hmantissa)) hcarry'
    · exact Or.inl (by dsimp only; omega)
    · exact Or.inr ⟨heq, hmantissa⟩

/-- One is rounded to itself. -/
theorem rounded_one : rounded 1 = (2 ^ 52, -52) := by
  have hexp : exponentOf 1 = -52 := by
    rw [exponentOf, Int.log_one_right]
    rfl
  have hscaled : (1 : ℚ) / 2 ^ (-52 : ℤ) = (2 ^ 52 : ℕ) := by norm_num
  unfold rounded
  rw [hexp, hscaled, nearest_natCast, if_neg (by norm_num)]

/-! ## What a pair stands for -/

/-- The number that a mantissa and an exponent stand for. -/
def worth (a : ℕ × ℤ) : ℚ := a.1 * 2 ^ a.2

/-- A mantissa of 53 digits is worth something. -/
theorem worth_pos {a : ℕ × ℤ} (h : 2 ^ 52 ≤ a.1) : 0 < worth a :=
  mul_pos (Nat.cast_pos.mpr ((Nat.two_pow_pos 52).trans_le h)) (by positivity)

/-- Mantissas of 53 digits with their exponents are in order as the numbers they stand for. -/
theorem worth_mono {a b : ℕ × ℤ} (ha : a.1 < 2 ^ 53) (hb : 2 ^ 52 ≤ b.1) (h : NotAbove a b) : worth a ≤ worth b := by
  have hb' : (2 : ℚ) ^ 52 ≤ b.1 := by exact_mod_cast hb
  have ha' : (a.1 : ℚ) < 2 ^ 53 := by exact_mod_cast ha
  unfold worth
  rcases h with hlt | ⟨heq, hle⟩
  · calc (a.1 : ℚ) * 2 ^ a.2
        ≤ 2 ^ 53 * 2 ^ a.2 := mul_le_mul_of_nonneg_right ha'.le (by positivity)
      _ = 2 ^ 52 * 2 ^ (a.2 + 1) := by rw [zpow_add_one₀ two_ne_zero]; ring
      _ ≤ 2 ^ 52 * 2 ^ b.2 := mul_le_mul_of_nonneg_left (zpow_le_zpow_right₀ one_le_two hlt) (by positivity)
      _ ≤ b.1 * 2 ^ b.2 := mul_le_mul_of_nonneg_right hb' (by positivity)
  · rw [heq]
    exact mul_le_mul_of_nonneg_right (Nat.cast_le.mpr hle) (by positivity)

/-! ## Rounding with an accuracy -/

/-- A 64-bit float keeps 53 digits, and none beyond the 1074th after the point. -/
theorem targetExponent_binary64 (total : ℤ) : Format.binary64.targetExponent total = max (total - 53) (-1074) := by
  have hmin : Format.binary64.minExponent = -1074 := by decide
  have hbits : (Format.binary64.mantissaBits : ℤ) = 53 := by decide
  rw [Format.targetExponent, hmin, hbits]

/-- The exponent that a mantissa is shifted to goes by its logarithm. -/
theorem targetExponent_totalExponent (mantissa : ℕ) (exponent : ℤ) :
    Format.binary64.targetExponent (totalExponent mantissa exponent) = max (mantissa.log2 + exponent - 52) (-1074) := by
  rw [targetExponent_binary64, totalExponent]
  congr 1
  ring

/-- The digits of the whole part say where a fraction lies. -/
theorem exponentOf_eq {mantissa : ℕ} {exponent : ℤ} {accuracy : Accuracy} {x : ℚ} (hmantissa : 0 < mantissa)
    (h : Tells accuracy (x / 2 ^ exponent - mantissa)) : exponentOf x = mantissa.log2 + exponent - 52 := by
  have hpos : (0 : ℚ) < 2 ^ exponent := by positivity
  obtain ⟨hlow, hhigh⟩ := h.bounds
  have hmantissa' : (2 : ℚ) ^ (mantissa.log2 : ℤ) ≤ mantissa := by
    exact_mod_cast Nat.log2_self_le hmantissa.ne'
  have hmantissa'' : (mantissa : ℚ) + 1 ≤ 2 ^ ((mantissa.log2 : ℤ) + 1) := by
    exact_mod_cast Nat.succ_le_of_lt (Nat.lt_log2_self (n := mantissa))
  have hle : 2 ^ ((mantissa.log2 : ℤ) + exponent) ≤ x := by
    rw [zpow_add₀ two_ne_zero, ← le_div_iff₀ hpos]
    linarith
  have hlt : x < 2 ^ ((mantissa.log2 : ℤ) + exponent + 1) := by
    rw [add_right_comm, zpow_add₀ two_ne_zero, ← div_lt_iff₀ hpos]
    linarith
  have hx : 0 < x := lt_of_lt_of_le (by positivity) hle
  have hge := (Int.zpow_le_iff_le_log (b := 2) Nat.one_lt_two hx).mp hle
  have hlt := (Int.lt_zpow_iff_log_lt (b := 2) Nat.one_lt_two hx).mp hlt
  unfold exponentOf
  omega

/-- Nothing is dropped of a mantissa that has 53 digits at most. -/
theorem shiftToTargetExponent_of_lt {mantissa : ℕ} {exponent : ℤ} (hmantissa : mantissa < 2 ^ 53) (hexp : -1074 ≤ exponent) :
    shiftToTargetExponent Format.binary64 mantissa exponent .exact = (⟨mantissa, false, false⟩, exponent) := by
  have hlog : mantissa.log2 ≤ 52 := by
    rcases Nat.eq_zero_or_pos mantissa with rfl | hpos
    · exact Nat.zero_le _
    · exact Nat.le_of_lt_succ ((Nat.log2_lt hpos.ne').mpr hmantissa)
  have hshift : (Format.binary64.targetExponent (totalExponent mantissa exponent) - exponent).toNat = 0 := by
    rw [targetExponent_totalExponent]
    omega
  rw [shiftToTargetExponent, shiftToExponent, hshift]
  simp [ExtendedMantissa.ofMantissaAndAccuracy, HShiftRight.hShiftRight, Nat.repeat]

/-- A carry into a digit too many is followed by a shift. -/
theorem shiftToTargetExponent_of_carry {exponent : ℤ} (hexp : -1074 ≤ exponent) :
    shiftToTargetExponent Format.binary64 (2 ^ 53) exponent .exact = (⟨2 ^ 52, false, false⟩, exponent + 1) := by
  have hshift : (Format.binary64.targetExponent (totalExponent (2 ^ 53) exponent) - exponent).toNat = 1 := by
    rw [targetExponent_totalExponent, Nat.log2_two_pow]
    omega
  rw [shiftToTargetExponent, shiftToExponent, hshift]
  rfl

/-- Whatever is known of a result, its digits and its accuracy, is rounded to the number nearest to it. -/
theorem roundWithAccuracy_eq {mantissa : ℕ} {exponent : ℤ} {accuracy : Accuracy} {x : ℚ} (hmantissa : 0 < mantissa)
    (h : Tells accuracy (x / 2 ^ exponent - mantissa)) (hexp : exponent ≤ exponentOf x) (hmin : -1074 ≤ exponentOf x) :
    ∃ hpos, roundWithAccuracy Format.binary64 .positive mantissa exponent accuracy =
      .finite .positive (rounded x).1 (rounded x).2 hpos := by
  have hx : 0 < x := by
    have hfirst : (0 : ℚ) < x / 2 ^ exponent := by
      have := h.bounds.1
      have hcast : (0 : ℚ) < mantissa := Nat.cast_pos.mpr hmantissa
      linarith
    have hscale : (0 : ℚ) < 2 ^ exponent := by positivity
    exact (div_pos_iff_of_pos_right hscale).mp hfirst
  have htarget : Format.binary64.targetExponent (totalExponent mantissa exponent) = exponentOf x := by
    rw [targetExponent_totalExponent, ← exponentOf_eq hmantissa h, max_eq_left hmin]
  have hfirst : (shiftToTargetExponent Format.binary64 mantissa exponent accuracy).1.roundedMantissa =
      nearest (x / 2 ^ exponentOf x) := by
    rw [shiftToTargetExponent, htarget, shiftToExponent,
      ((reads_ofMantissaAndAccuracy h).shiftRight _).roundedMantissa, div_div, ← zpow_natCast, ← zpow_add₀ two_ne_zero]
    congr 3
    omega
  have hfirst' : (shiftToTargetExponent Format.binary64 mantissa exponent accuracy).2 = exponentOf x := by
    rw [shiftToTargetExponent, htarget, shiftToExponent]
    dsimp only
    omega
  have hsecond : shiftToTargetExponent Format.binary64 (nearest (x / 2 ^ exponentOf x)) (exponentOf x) .exact =
      (⟨(rounded x).1, false, false⟩, (rounded x).2) := by
    unfold rounded
    split_ifs with hcarry
    · rw [hcarry]
      exact shiftToTargetExponent_of_carry hmin
    · exact shiftToTargetExponent_of_lt (lt_of_le_of_ne (nearest_scaled_bounds hx).2 hcarry) hmin
  have hpos : 0 < (rounded x).1 := (Nat.two_pow_pos 52).trans_le (rounded_bounds hx).1
  refine ⟨hpos, ?_⟩
  rcases heq : shiftToTargetExponent Format.binary64 mantissa exponent accuracy with ⟨extended, exponent'⟩
  rw [heq] at hfirst hfirst'
  dsimp only at hfirst hfirst'
  rw [roundWithAccuracy, heq]
  dsimp only
  rw [hfirst, hfirst', hsecond]
  exact dif_neg hpos.ne'

end TileDepot.Binary64
