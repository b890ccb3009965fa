import TileDepot.Proofs.Amounts

/-!
# What rounding loses

Rounding to 53 digits moves a positive number by no more than one part in `2 ^ 53` of it. So a result that was rounded a few
times on the way is the exact one but for so many factors close to one, as long as nothing comes near the ends of the range.
Nothing stays nothing.
-/

namespace TileDepot.Binary64

open Float.Model Float.Model.UnpackedFloat

/-! ## One rounding -/

/-- The nearest whole number is at most one half below a number. -/
theorem le_nearest (x : ℚ) : x - 1 / 2 ≤ nearest x := by
  have hfloor := Nat.lt_floor_add_one x
  unfold nearest
  split_ifs with hbelow habove
  · linarith
  · push_cast
    linarith
  · -- exactly half way
    have hdigit : (0 : ℚ) ≤ (⌊x⌋₊ % 2 : ℕ) := Nat.cast_nonneg _
    push_cast at hdigit ⊢
    linarith

/-- What is kept of a number that is rounded once, at least. -/
def keptPart : ℚ := 1 - 2 ^ (-53 : ℤ)

/-- Something is kept in a rounding. -/
theorem keptPart_pos : 0 < keptPart := by
  unfold keptPart
  norm_num

/-- Digits of which there are 53 are rounded by no more than one part in `2 ^ 53` of them. -/
theorem nearest_near {x : ℚ} (hx : 2 ^ 52 ≤ x) : x * keptPart ≤ nearest x ∧ nearest x * keptPart ≤ x := by
  have hbelow := le_nearest x
  have habove := nearest_le (le_trans (by norm_num) hx)
  have hpart : keptPart = 1 - 1 / (2 * 2 ^ 52) := by
    unfold keptPart
    norm_num
  rw [hpart]
  constructor
  · linarith
  · linarith

/-- A positive number and what it is rounded to differ by one part in `2 ^ 53` at the most. -/
theorem worth_rounded_near {x : ℚ} (hx : 0 < x) : x * keptPart ≤ worth (rounded x) ∧ worth (rounded x) * keptPart ≤ x := by
  have hscale : (0 : ℚ) < 2 ^ exponentOf x := zpow_pos two_pos _
  have hdigits : x / 2 ^ exponentOf x * 2 ^ exponentOf x = x := div_mul_cancel₀ x hscale.ne'
  obtain ⟨hbelow, habove⟩ := nearest_near (scaled_bounds hx).1
  rw [worth_rounded]
  constructor
  · calc x * keptPart = x / 2 ^ exponentOf x * keptPart * 2 ^ exponentOf x := by rw [mul_right_comm, hdigits]
      _ ≤ _ := mul_le_mul_of_nonneg_right hbelow hscale.le
  · calc _ = (nearest (x / 2 ^ exponentOf x) : ℚ) * keptPart * 2 ^ exponentOf x := mul_right_comm _ _ _
      _ ≤ x / 2 ^ exponentOf x * 2 ^ exponentOf x := mul_le_mul_of_nonneg_right habove hscale.le
      _ = x := hdigits

/-! ## Some roundings -/

/-- Two numbers of which each is the other but for some roundings. -/
def Close (roundings : ℕ) (x y : ℚ) : Prop := x * keptPart ^ roundings ≤ y ∧ y * keptPart ^ roundings ≤ x

/-- What a number is rounded to is close to it, with one rounding. -/
theorem close_rounded {x : ℚ} (hx : 0 < x) : Close 1 x (worth (rounded x)) := by
  unfold Close
  rw [pow_one]
  exact worth_rounded_near hx

variable {j k : ℕ} {x x' y y' z : ℚ}

/-- Roundings one after the other add up. -/
theorem Close.trans (h : Close j x y) (h' : Close k y z) : Close (j + k) x z := by
  have hj : 0 ≤ keptPart ^ j := pow_nonneg keptPart_pos.le j
  have hk : 0 ≤ keptPart ^ k := pow_nonneg keptPart_pos.le k
  unfold Close
  rw [pow_add]
  constructor
  · rw [← mul_assoc]
    exact (mul_le_mul_of_nonneg_right h.1 hk).trans h'.1
  · rw [mul_comm (keptPart ^ j), ← mul_assoc]
    exact (mul_le_mul_of_nonneg_right h'.2 hj).trans h.2

/-- The roundings of two factors add up in their product. -/
theorem Close.mul (hx : 0 ≤ x) (hx' : 0 ≤ x') (hy : 0 ≤ y) (hy' : 0 ≤ y') (h : Close j x x') (h' : Close k y y') :
    Close (j + k) (x * y) (x' * y') := by
  have hk : 0 ≤ keptPart ^ k := pow_nonneg keptPart_pos.le k
  unfold Close
  rw [pow_add, mul_mul_mul_comm x, mul_mul_mul_comm x']
  exact ⟨mul_le_mul h.1 h'.1 (mul_nonneg hy hk) hx', mul_le_mul h.2 h'.2 (mul_nonneg hy' hk) hx⟩

/-- An inverse is rounded as often as what it is the inverse of. -/
theorem Close.inv (hy : 0 < y) (hy' : 0 < y') (h : Close k y y') : Close k y⁻¹ y'⁻¹ := by
  unfold Close
  rw [inv_mul_eq_div, inv_mul_eq_div, div_le_iff₀ hy, div_le_iff₀ hy', inv_mul_eq_div, inv_mul_eq_div, le_div_iff₀ hy',
    le_div_iff₀ hy,
    mul_comm, mul_comm _ y]
  exact ⟨h.2, h.1⟩

/-- The roundings of two numbers add up in their quotient. -/
theorem Close.div (hx : 0 ≤ x) (hx' : 0 ≤ x') (hy : 0 < y) (hy' : 0 < y') (h : Close j x x') (h' : Close k y y') :
    Close (j + k) (x / y) (x' / y') := by
  rw [div_eq_mul_inv, div_eq_mul_inv]
  exact h.mul hx hx' (inv_nonneg.mpr hy.le) (inv_nonneg.mpr hy'.le) (h'.inv hy hy')

/-! ## Numbers that were rounded on the way -/

/-- A number that is an amount but for some roundings, where all that is rounded lies between powers of two. Nothing is zero. -/
def Tracks (number : Float) (x : ℚ) (roundings : ℕ) (reach : ℤ) : Prop :=
  (x = 0 ∧ number.toModel.unpack = .zero .positive) ∨
    0 < x ∧ ∃ y, Nears number y ∧ (2 ^ (-reach) ≤ y ∧ y ≤ 2 ^ reach) ∧ Close roundings x (worth (rounded y))

/-- What is tracked is not negative. -/
theorem Tracks.nonneg {number : Float} {reach : ℤ} (h : Tracks number x k reach) : 0 ≤ x := by
  rcases h with ⟨rfl, -⟩ | ⟨hpos, -⟩
  · exact le_rfl
  · exact hpos.le

/-- A whole number is rounded once. -/
theorem tracks_natCast {n bits : ℕ} (h : n ≤ 2 ^ bits) (hbits : bits ≤ 300) : Tracks (.ofNat n) n 1 bits := by
  rcases Nat.eq_zero_or_pos n with rfl | hpos
  · exact Or.inl ⟨Nat.cast_zero, unpack_ofNat_zero⟩
  · obtain ⟨hlow, hhigh⟩ := natCast_bounds hpos h
    have hlow' : (2 : ℚ) ^ (-(bits : ℤ)) ≤ n := (zpow_le_zpow_right₀ one_le_two (by omega)).trans hlow
    have hmoderate : Moderate 400 n := moderate_of_bounds ((zpow_le_zpow_right₀ one_le_two (by omega)).trans hlow')
      (hhigh.trans (zpow_le_zpow_right₀ one_le_two (by omega)))
    have hcast : (0 : ℚ) < n := Nat.cast_pos.mpr hpos
    exact Or.inr ⟨hcast, n, nears_natCast hpos hmoderate, ⟨hlow', hhigh⟩, close_rounded hcast⟩

variable {number number' : Float} {reach reach' : ℤ}

/-- A value within a small reach is of moderate size. -/
theorem moderate_of_reach (h : 2 ^ (-reach) ≤ x ∧ x ≤ 2 ^ reach) (hreach : reach ≤ 300) : Moderate 400 x :=
  moderate_of_bounds ((zpow_le_zpow_right₀ one_le_two (by omega)).trans h.1)
    (h.2.trans (zpow_le_zpow_right₀ one_le_two hreach))

/-- Nothing times a number is nothing. -/
theorem unpack_zero_mul (h : number.toModel.unpack = .zero .positive) (h' : Tracks number' y k reach') :
    (number * number').toModel.unpack = .zero .positive := by
  change (pack (UnpackedFloat.mul _ number.toModel.unpack number'.toModel.unpack)).unpack = _
  rcases h' with ⟨-, hzero⟩ | ⟨-, y', ⟨hpos, hunpack⟩, -⟩
  · rw [h, hzero]
    rfl
  · rw [h, hunpack]
    exact (rfl : (pack (.zero .positive)).unpack = .zero .positive)

/-- What is tracked times nothing is nothing. -/
theorem unpack_mul_zero (h : Tracks number x j reach) (h' : number'.toModel.unpack = .zero .positive) :
    (number * number').toModel.unpack = .zero .positive := by
  change (pack (UnpackedFloat.mul _ number.toModel.unpack number'.toModel.unpack)).unpack = _
  rcases h with ⟨-, hzero⟩ | ⟨-, x', ⟨hpos, hunpack⟩, -⟩
  · rw [hzero, h']
    rfl
  · rw [hunpack, h']
    exact (rfl : (pack (.zero .positive)).unpack = .zero .positive)

/-- The product of two numbers is rounded once more. -/
theorem Tracks.mul (h : Tracks number x j reach) (h' : Tracks number' y k reach') (hreach : reach ≤ 300) (hreach' : reach' ≤ 300) :
    Tracks (number * number') (x * y) (j + k + 1) (reach + reach') := by
  rcases h with ⟨rfl, hzero⟩ | ⟨hx, x', hnears, hbounds, hclose⟩
  · exact Or.inl ⟨zero_mul y, unpack_zero_mul hzero h'⟩
  · rcases h' with ⟨rfl, hzero⟩ | ⟨hy, y', hnears', hbounds', hclose'⟩
    · exact Or.inl ⟨mul_zero x, unpack_mul_zero (Or.inr ⟨hx, x', hnears, hbounds, hclose⟩) hzero⟩
    · obtain ⟨hlow, hhigh⟩ := worth_rounded_bounds hbounds.1 hbounds.2
      obtain ⟨hlow', hhigh'⟩ := worth_rounded_bounds hbounds'.1 hbounds'.2
      have hpos : 0 < worth (rounded x') := (zpow_pos two_pos _).trans_le hlow
      have hpos' : 0 < worth (rounded y') := (zpow_pos two_pos _).trans_le hlow'
      refine Or.inr ⟨mul_pos hx hy, _, nears_mul hnears hnears' (moderate_of_reach hbounds hreach)
        (moderate_of_reach hbounds' hreach'), ⟨?_, ?_⟩,
        (hclose.mul hx.le hpos.le hy.le hpos'.le hclose').trans (close_rounded (mul_pos hpos hpos'))⟩
      · rw [neg_add, zpow_add₀ two_ne_zero]
        exact mul_le_mul hlow hlow' (zpow_nonneg two_pos.le _) hpos.le
      · rw [zpow_add₀ two_ne_zero]
        exact mul_le_mul hhigh hhigh' hpos'.le (zpow_nonneg two_pos.le _)

/-- The quotient of two numbers is rounded once more. -/
theorem Tracks.div (h : Tracks number x j reach) (h' : Tracks number' y k reach') (hy : 0 < y) (hreach : reach ≤ 300)
    (hreach' : reach' ≤ 300) : Tracks (number / number') (x / y) (j + k + 1) (reach + reach') := by
  rcases h' with ⟨rfl, -⟩ | ⟨-, y', hnears', hbounds', hclose'⟩
  · exact absurd hy (lt_irrefl 0)
  · rcases h with ⟨rfl, hzero⟩ | ⟨hx, x', hnears, hbounds, hclose⟩
    · exact Or.inl ⟨zero_div y, unpack_zero_div hzero hnears'⟩
    · obtain ⟨hlow, hhigh⟩ := worth_rounded_bounds hbounds.1 hbounds.2
      obtain ⟨hlow', hhigh'⟩ := worth_rounded_bounds hbounds'.1 hbounds'.2
      have hpos : 0 < worth (rounded x') := (zpow_pos two_pos _).trans_le hlow
      have hpos' : 0 < worth (rounded y') := (zpow_pos two_pos _).trans_le hlow'
      have hquotient := div_bounds hlow hhigh hlow' hhigh'
      refine Or.inr ⟨div_pos hx hy, _, nears_div hnears hnears' (moderate_of_reach hbounds hreach)
        (moderate_of_reach hbounds' hreach'), ?_,
        (hclose.div hx.le hpos.le hy hpos' hclose').trans (close_rounded (div_pos hpos hpos'))⟩
      rwa [neg_add, ← sub_eq_add_neg, ← sub_neg_eq_add reach]

/-! ## Rounded up -/

/-- A quotient rounded up, in whole numbers. -/
theorem ceil_div (num : ℕ) {den : ℕ} (hden : 0 < den) : ⌈(num : ℚ) / den⌉ = ((num : ℤ) + den - 1) / den := by
  have hden' : (0 : ℚ) < den := Nat.cast_pos.mpr hden
  have hpos : (0 : ℤ) < den := Int.natCast_pos.mpr hden
  have hbelow := Int.ediv_mul_le ((num : ℤ) + den - 1) hpos.ne'
  have habove := Int.lt_ediv_add_one_mul_self ((num : ℤ) + den - 1) hpos
  generalize ((num : ℤ) + den - 1) / den = whole at *
  rw [Int.add_mul, Int.one_mul] at habove
  have hleast : (whole : ℚ) * den < num + den := by exact_mod_cast (by omega : whole * den < num + den)
  have hmost : (num : ℚ) ≤ whole * den := by exact_mod_cast (by omega : (num : ℤ) ≤ whole * den)
  rw [Int.ceil_eq_iff]
  constructor
  · rw [lt_div_iff₀ hden']
    linarith
  · rwa [div_le_iff₀ hden']

/-- A positive fraction is rounded up to the next whole number, within the range. -/
theorem Denotes.toInt_up {low high : ℤ} (h : Denotes number .positive x) :
    (ofFloat number).toInt .up low high = clamp low high ⌈x⌉ := by
  obtain ⟨mantissa, exponent, hpos, hunpack, heq⟩ := h
  have hden := fraction_den_pos mantissa exponent
  have hden' : ((fraction mantissa exponent).2 : ℚ) ≠ 0 := Nat.cast_ne_zero.mpr hden.ne'
  have hfraction : x = ((fraction mantissa exponent).1 : ℚ) / (fraction mantissa exponent).2 := by
    rw [eq_div_iff hden', fraction_eq, heq]
  have hround : roundFraction .up false (fraction mantissa exponent).1 (fraction mantissa exponent).2 = ⌈x⌉ := by
    rw [hfraction, ceil_div _ hden]
    simp only [roundFraction, Bool.false_eq_true, if_false]
  rw [ofFloat_of_unpack hunpack]
  exact congrArg (clamp low high) hround

/-- Nothing is rounded up to nothing. -/
theorem toInt_up_zero (exponent : ℤ) {low high : ℤ} (hlow : low ≤ 0) (hhigh : 0 ≤ high) :
    (finite false 0 exponent).toInt .up low high = 0 := by
  have hden := fraction_den_pos 0 exponent
  have hround : roundFraction .up false (fraction 0 exponent).1 (fraction 0 exponent).2 = 0 := by
    have hnum : (fraction 0 exponent).1 = 0 := Nat.zero_mul _
    rw [hnum]
    simp only [roundFraction, Bool.false_eq_true, if_false]
    exact Int.ediv_eq_zero_of_lt (by omega) (by omega)
  exact (congrArg (clamp low high) hround).trans (clamp_of_mem hlow hhigh)

/-- What a number is rounded up to that is an amount but for some roundings: it is no less than the amount but for these, unless
the range ends before, and its predecessor is below the amount but for these. -/
theorem Tracks.toInt_up {low high : ℤ} (h : Tracks number x k reach) (hlow : low ≤ 0) (hhigh : 0 ≤ high) :
    min (x * keptPart ^ k) high ≤ ((ofFloat number).toInt .up low high : ℤ) ∧
      (((ofFloat number).toInt .up low high : ℤ) - 1) * keptPart ^ k < x := by
  have hpower : 0 < keptPart ^ k := pow_pos keptPart_pos k
  rcases h with ⟨rfl, hzero⟩ | ⟨-, y, hnears, -, hclose⟩
  · have hround : (ofFloat number).toInt .up low high = 0 := by
      rw [ofFloat_eq_read, hzero]
      exact toInt_up_zero (-1074) hlow hhigh
    rw [hround, zero_mul, Int.cast_zero, zero_sub, neg_one_mul]
    exact ⟨min_le_left _ _, neg_lt_zero.mpr hpower⟩
  · rw [hnears.denotes.toInt_up]
    have hpos : 0 < worth (rounded y) := by
      obtain ⟨hmantissa, -⟩ := hnears
      exact mul_pos (Nat.cast_pos.mpr hmantissa) (zpow_pos two_pos _)
    have hceil := Int.le_ceil (worth (rounded y))
    have hceil' := Int.ceil_lt_add_one (worth (rounded y))
    have hclamp : clamp low high ⌈worth (rounded y)⌉ = min ⌈worth (rounded y)⌉ high := by
      have := Int.ceil_pos.mpr hpos
      unfold clamp
      split_ifs <;> omega
    rw [hclamp, Int.cast_min]
    refine ⟨min_le_min_right _ (hclose.1.trans hceil), lt_of_lt_of_le ?_ hclose.2⟩
    refine mul_lt_mul_of_pos_right ?_ hpower
    linarith [min_le_left (⌈worth (rounded y)⌉ : ℚ) high]

end TileDepot.Binary64
