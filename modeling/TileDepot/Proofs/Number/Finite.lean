import TileDepot.Number.Decimal
import TileDepot.Proofs.Number.Quotients

/-!
# Numbers that stay finite

A result is rounded to a number as long as it lies less than half a step above the largest one. So what is added to a number
cannot make it infinite unless it is large itself, and a number stays finite when it is divided by one that is not below one.
-/

namespace TileDepot.Binary64

open Float.Model Float.Model.UnpackedFloat

/-- The largest number. -/
def largest : ℚ := (2 ^ 53 - 1) * 2 ^ (971 : ℤ)

/-- Half a step above the largest number. -/
def overflow : ℚ := (2 ^ 53 - 1 / 2) * 2 ^ (971 : ℤ)

/-- The magnitude of a number that is finite. -/
def magnitude : UnpackedFloat → ℚ
  | .finite _ mantissa exponent _ => mantissa * 2 ^ exponent
  | _ => 0

/-- Beyond the largest number by half of its last digit, numbers overflow. -/
theorem overflow_eq : overflow = largest + 2 ^ (970 : ℤ) := by
  have hpower : (2 : ℚ) ^ (971 : ℤ) = 2 ^ (970 : ℤ) * 2 := zpow_add_one₀ two_ne_zero 970
  unfold largest overflow
  rw [hpower]
  ring

/-- What adds less than that to the largest number does not overflow. -/
theorem largest_add_lt_overflow {x : ℚ} (h : x < 2 ^ (970 : ℤ)) : largest + x < overflow := by
  rw [overflow_eq]
  linarith

/-- The largest number does not overflow. -/
theorem largest_lt_overflow : largest < overflow := by
  rw [← add_zero largest]
  exact largest_add_lt_overflow (by positivity)

/-! ## What is packed -/

/-- The exponents of 64-bit floats are biased by 1023. -/
theorem exponentBias_binary64 : (Format.binary64.exponentBias : ℤ) = 1023 := by decide

/-- The digits and the exponent of a finite number. -/
theorem unpack_bounds {bits : BitVec 64} {sign : Sign} {mantissa : ℕ} {exponent : ℤ} {hpos : 0 < mantissa}
    (h : UnpackedFloat.unpack Format.binary64 bits = .finite sign mantissa exponent hpos) :
    mantissa < 2 ^ 53 ∧ exponent ≤ 971 := by
  unfold UnpackedFloat.unpack at h
  dsimp only at h
  rw [exponentBias_binary64] at h
  have hbiased : (@unpackExponent Format.binary64 bits).toNat < 2 ^ 11 := BitVec.isLt _
  split at h
  · split at h <;> cases h
  · rename_i hfinite
    split at h
    · rename_i hzero
      split at h
      · cases h
      · obtain ⟨-, rfl, rfl⟩ := UnpackedFloat.finite.inj h
        rw [hzero]
        exact ⟨(BitVec.isLt _).trans (by norm_num), by norm_num⟩
    · obtain ⟨-, rfl, rfl⟩ := UnpackedFloat.finite.inj h
      refine ⟨(1#1 ++ @unpackMantissa Format.binary64 bits).isLt, ?_⟩
      have hne : (@unpackExponent Format.binary64 bits).toNat ≠ 2047 := fun heq => hfinite (BitVec.eq_of_toNat_eq heq)
      push_cast
      omega

/-- No magnitude is negative. -/
theorem magnitude_nonneg (number : UnpackedFloat) : 0 ≤ magnitude number := by
  cases number with
  | finite sign mantissa exponent hpos => exact mul_nonneg (Nat.cast_nonneg _) (zpow_nonneg two_pos.le _)
  | _ => exact le_rfl

/-- No magnitude exceeds the largest number. -/
theorem magnitude_le_largest (x : Float) : magnitude x.toModel.unpack ≤ largest := by
  cases hunpack : x.toModel.unpack with
  | finite sign mantissa exponent hpos =>
    obtain ⟨hmantissa, hexponent⟩ := unpack_bounds hunpack
    have hdigits : (mantissa : ℚ) ≤ 2 ^ 53 - 1 := by
      rw [le_sub_iff_add_le]
      exact_mod_cast hmantissa
    have hpower : (2 : ℚ) ^ exponent ≤ 2 ^ (971 : ℤ) := zpow_le_zpow_right₀ one_le_two hexponent
    exact mul_le_mul hdigits hpower (zpow_nonneg two_pos.le _) (by norm_num)
  | _ =>
    change (0 : ℚ) ≤ largest
    unfold largest
    norm_num

/-- What is packed with an exponent in range is finite. -/
theorem isFinite_pack {sign : Sign} {mantissa : ℕ} {exponent : ℤ} (hpos : 0 < mantissa) (hmax : exponent ≤ 971) :
    (pack (.finite sign mantissa exponent hpos)).isFinite = true := by
  change (UnpackedFloat.unpack Format.binary64 (UnpackedFloat.pack Format.binary64 _)).isFinite = true
  have hfinite : unpackExponent (UnpackedFloat.pack Format.binary64 (.finite sign mantissa exponent hpos)) ≠ -1#_ := by
    simp only [UnpackedFloat.pack]
    rw [exponentBias_binary64]
    split
    · rename_i hlarge
      exfalso
      push_cast at hlarge
      omega
    · rename_i hsmall
      split
      · rw [unpackExponent_packComponents]
        intro heq
        have htoNat := congrArg BitVec.toNat heq
        rw [BitVec.toNat_ofNat] at htoNat
        change _ = 2047 at htoNat
        push_cast at htoNat hsmall
        omega
      · rw [unpackExponent_packComponents]
        decide
  unfold UnpackedFloat.unpack
  dsimp only
  rw [if_neg hfinite]
  split
  · split <;> rfl
  · rfl

/-- Zero is finite. -/
theorem isFinite_pack_zero (sign : Sign) : (pack (.zero sign)).isFinite = true := by
  cases sign <;> rfl

/-! ## What is rounded -/

/-- The nearest whole number is at most one half above a number. -/
theorem nearest_le {x : ℚ} (h : 0 ≤ x) : (nearest x : ℚ) ≤ x + 1 / 2 := by
  have hfloor := Nat.floor_le h
  unfold nearest
  split_ifs with hbelow habove
  · linarith
  · push_cast
    linarith
  · have hdigit : ((⌊x⌋₊ % 2 : ℕ) : ℚ) ≤ 1 := by exact_mod_cast Nat.le_of_lt_succ (Nat.mod_lt ⌊x⌋₊ two_pos)
    push_cast at hdigit ⊢
    linarith

/-- The numbers that overflow lie just below a power of two. -/
theorem overflow_add : overflow + 2 ^ (970 : ℤ) = 2 ^ (1024 : ℤ) := by
  have hpower : (2 : ℚ) ^ (971 : ℤ) = 2 ^ (970 : ℤ) * 2 := zpow_add_one₀ two_ne_zero 970
  have hpower' : (2 : ℚ) ^ (1024 : ℤ) = 2 ^ (970 : ℤ) * 2 ^ (54 : ℤ) := zpow_add₀ two_ne_zero 970 54
  unfold overflow
  rw [hpower, hpower']
  ring

/-- How many digits a mantissa has below a power of two. -/
theorem log2_add_lt {mantissa : ℕ} {exponent bound : ℤ} (hexponent : exponent < bound)
    (h : (mantissa : ℚ) * 2 ^ exponent < 2 ^ bound) : mantissa.log2 + exponent < bound := by
  rcases Nat.eq_zero_or_pos mantissa with rfl | hpos
  · simpa using hexponent
  · have hlog : (2 : ℚ) ^ (mantissa.log2 : ℤ) ≤ mantissa := by exact_mod_cast Nat.log2_self_le hpos.ne'
    have hpower : (2 : ℚ) ^ ((mantissa.log2 : ℤ) + exponent) < 2 ^ bound := by
      rw [zpow_add₀ two_ne_zero]
      exact (mul_le_mul_of_nonneg_right hlog (zpow_nonneg two_pos.le _)).trans_lt h
    exact (zpow_lt_zpow_iff_right₀ one_lt_two).mp hpower

section Shift

variable {mantissa : ℕ} {exponent : ℤ} {accuracy : Accuracy}

/-- A number of moderate size is shifted to an exponent that can be stored. -/
theorem shiftToTargetExponent_le (hexponent : exponent ≤ 971) (hlog : mantissa.log2 + exponent < 1024) :
    (shiftToTargetExponent Format.binary64 mantissa exponent accuracy).2 ≤ 971 := by
  rw [shiftToTargetExponent, targetExponent_totalExponent, shiftToExponent]
  dsimp only
  omega

/-- The digits that are left stand for the same fraction. -/
theorem reads_shiftToTargetExponent {x : ℚ} (h : Tells accuracy (x / 2 ^ exponent - mantissa)) :
    Reads (shiftToTargetExponent Format.binary64 mantissa exponent accuracy).1
      (x / 2 ^ (shiftToTargetExponent Format.binary64 mantissa exponent accuracy).2) := by
  rw [shiftToTargetExponent, shiftToExponent, zpow_add₀ two_ne_zero, ← div_div, zpow_natCast]
  exact (reads_ofMantissaAndAccuracy h).shiftRight _

/-- What lies below the overflow is rounded to a finite number. -/
theorem isFinite_round {sign : Sign} {x : ℚ} (h : Tells accuracy (x / 2 ^ exponent - mantissa)) (hexponent : exponent ≤ 971)
    (hx : x < overflow) : (pack (roundWithAccuracy Format.binary64 sign mantissa exponent accuracy)).isFinite = true := by
  have hstep : (0 : ℚ) < 2 ^ (970 : ℤ) := zpow_pos two_pos 970
  have hwhole : (mantissa : ℚ) * 2 ^ exponent ≤ x := by
    rw [← le_div_iff₀ (zpow_pos two_pos exponent)]
    linarith [h.bounds.1]
  have hnonneg : 0 ≤ x := (mul_nonneg (Nat.cast_nonneg mantissa) (zpow_nonneg two_pos.le exponent)).trans hwhole
  have hlog : mantissa.log2 + exponent < 1024 := by
    refine log2_add_lt (by omega) ?_
    rw [← overflow_add]
    exact hwhole.trans_lt (hx.trans (lt_add_of_pos_right _ hstep))
  have hreads := reads_shiftToTargetExponent h
  have hexponent' := @shiftToTargetExponent_le _ _ accuracy hexponent hlog
  rw [roundWithAccuracy]
  generalize shiftToTargetExponent Format.binary64 mantissa exponent accuracy = shifted at hreads hexponent' ⊢
  obtain ⟨extended, exponent'⟩ := shifted
  dsimp only at hreads hexponent' ⊢
  rw [hreads.roundedMantissa]
  have hpower : (0 : ℚ) < 2 ^ exponent' := zpow_pos two_pos exponent'
  have hlog' : (nearest (x / 2 ^ exponent')).log2 + exponent' < 1024 := by
    refine log2_add_lt (by omega) ?_
    have hnearest := mul_le_mul_of_nonneg_right (nearest_le (div_nonneg hnonneg hpower.le)) hpower.le
    have hhalf : (2 : ℚ) ^ exponent' ≤ 2 ^ (970 : ℤ) * 2 := by
      rw [← zpow_add_one₀ two_ne_zero]
      exact zpow_le_zpow_right₀ one_le_two hexponent'
    rw [add_mul, div_mul_cancel₀ x hpower.ne'] at hnearest
    calc (nearest (x / 2 ^ exponent') : ℚ) * 2 ^ exponent'
        ≤ x + 1 / 2 * 2 ^ exponent' := hnearest
      _ ≤ x + 2 ^ (970 : ℤ) := by linarith
      _ < overflow + 2 ^ (970 : ℤ) := by linarith
      _ = 2 ^ (1024 : ℤ) := overflow_add
  split
  · exact isFinite_pack_zero sign
  · exact isFinite_pack _ (shiftToTargetExponent_le hexponent' hlog')

end Shift

/-- A mantissa that is shifted to the left under a lower exponent keeps its value. -/
theorem cast_decreased (mantissa k : ℕ) (exponent : ℤ) :
    ((mantissa <<< k : ℕ) : ℚ) * 2 ^ (exponent - k) = mantissa * 2 ^ exponent := by
  rw [cast_shiftLeft, mul_assoc, ← zpow_add₀ two_ne_zero, add_sub_cancel]

/-- A number is the same at a smaller exponent. -/
theorem cast_aligned (mantissa : ℕ) {target exponent : ℤ} (h : target ≤ exponent) :
    ((mantissa <<< (exponent - target).toNat : ℕ) : ℚ) * 2 ^ target = mantissa * 2 ^ exponent := by
  have htarget : target = exponent - (exponent - target).toNat := by omega
  rw [← cast_decreased mantissa (exponent - target).toNat exponent, ← htarget]

/-- A value that does not overflow is finite when it is normalized. -/
theorem isFinite_normalize {mantissa exponent : ℤ} {sign : Sign} (hexponent : exponent ≤ 971)
    (h : (mantissa.natAbs : ℚ) * 2 ^ exponent < overflow) :
    (pack (UnpackedFloat.normalize Format.binary64 mantissa exponent sign)).isFinite = true := by
  have hround : ∀ sign, (pack (UnpackedFloat.round Format.binary64 sign mantissa.natAbs exponent)).isFinite = true := by
    intro sign
    rw [UnpackedFloat.round, decreaseExponent]
    exact isFinite_round (tells_exact (cast_decreased _ _ exponent).symm) (by omega) h
  unfold UnpackedFloat.normalize
  rcases hcompare : compare mantissa 0 with _ | _ | _
  · have hneg : (-mantissa).toNat = mantissa.natAbs := by
      have := compare_lt_iff_lt.mp hcompare
      omega
    dsimp only
    rw [hneg]
    exact hround .negative
  · exact isFinite_pack_zero sign
  · have hpos : mantissa.toNat = mantissa.natAbs := by
      have := compare_gt_iff_gt.mp hcompare
      omega
    dsimp only
    rw [hpos]
    exact hround .positive

/-! ## Sums and quotients -/

/-- A finite float is zero, or has a mantissa and an exponent. -/
theorem finite_cases {x : Float} (h : x.isFinite = true) : (∃ sign, x.toModel.unpack = .zero sign) ∨
    ∃ sign mantissa exponent, ∃ hpos, x.toModel.unpack = .finite sign mantissa exponent hpos := by
  change x.toModel.unpack.isFinite = true at h
  match hunpack : x.toModel.unpack with
  | .zero sign => exact Or.inl ⟨sign, rfl⟩
  | .finite sign mantissa exponent hpos => exact Or.inr ⟨sign, mantissa, exponent, hpos, rfl⟩
  | .infinity _ | .notANumber =>
    rw [hunpack] at h
    cases h

/-- A float with a mantissa and an exponent is finite. -/
theorem isFinite_of_finite {x : Float} {sign : Sign} {mantissa : ℕ} {exponent : ℤ} {hpos : 0 < mantissa}
    (h : x.toModel.unpack = .finite sign mantissa exponent hpos) : x.isFinite = true := by
  change x.toModel.unpack.isFinite = true
  rw [h]
  rfl

/-- A sign does not change the magnitude. -/
theorem natAbs_apply (sign : Sign) (n : ℕ) : (sign.apply n).natAbs = n := by
  cases sign with
  | negative => exact Int.natAbs_neg n
  | positive => rfl

variable {a b : Float}

/-- A sum is finite unless it reaches the overflow. -/
theorem isFinite_add (ha : a.isFinite = true) (hb : b.isFinite = true)
    (h : magnitude a.toModel.unpack + magnitude b.toModel.unpack < overflow) : (a + b).isFinite = true := by
  change (pack (UnpackedFloat.add Format.binary64 a.toModel.unpack b.toModel.unpack)).isFinite = true
  rcases finite_cases ha with ⟨sign, hunpack⟩ | ⟨sign, mantissa, exponent, hpos, hunpack⟩
  · rcases finite_cases hb with ⟨sign', hunpack'⟩ | ⟨sign', mantissa', exponent', hpos', hunpack'⟩
    · rw [hunpack, hunpack']
      cases sign <;> cases sign' <;> rfl
    · rw [hunpack, hunpack']
      exact isFinite_pack hpos' (unpack_bounds hunpack').2
  · rcases finite_cases hb with ⟨sign', hunpack'⟩ | ⟨sign', mantissa', exponent', hpos', hunpack'⟩
    · rw [hunpack, hunpack']
      exact isFinite_pack hpos (unpack_bounds hunpack).2
    · have hmax := (unpack_bounds hunpack).2
      rw [hunpack, hunpack'] at h ⊢
      refine isFinite_normalize ((min_le_left _ _).trans hmax) (lt_of_le_of_lt ?_ h)
      calc _ ≤ (((mantissa <<< (exponent - min exponent exponent').toNat : ℕ) : ℚ) +
              (mantissa' <<< (exponent' - min exponent exponent').toNat : ℕ)) * 2 ^ min exponent exponent' := by
            refine mul_le_mul_of_nonneg_right ?_ (zpow_nonneg two_pos.le _)
            have hsum := Int.natAbs_add_le (sign.apply (mantissa <<< (exponent - min exponent exponent').toNat : ℕ))
              (sign'.apply (mantissa' <<< (exponent' - min exponent exponent').toNat : ℕ))
            rw [natAbs_apply, natAbs_apply] at hsum
            exact_mod_cast hsum
        _ = _ := by rw [add_mul, cast_aligned _ (min_le_left _ _), cast_aligned _ (min_le_right _ _)]; rfl

/-- The digits of what is divided are bounded by those of the divisor and of the quotient. -/
theorem digits_quotient_lt {sign sign' : Sign} {mantissa mantissa' : ℕ} {exponent exponent' : ℤ} (hpos : 0 < mantissa)
    (hpos' : 0 < mantissa')
    (h : magnitude (.finite sign mantissa exponent hpos) / magnitude (.finite sign' mantissa' exponent' hpos') < overflow) :
    mantissa.log2 + exponent < 1024 + (mantissa'.log2 + 1 + exponent') := by
  have hscale : (0 : ℚ) < 2 ^ exponent' := zpow_pos two_pos exponent'
  have hdivisor : (0 : ℚ) < mantissa' * 2 ^ exponent' := mul_pos (Nat.cast_pos.mpr hpos') hscale
  have hbelow : overflow < 2 ^ (1024 : ℤ) := by
    rw [← overflow_add]
    exact lt_add_of_pos_right _ (zpow_pos two_pos 970)
  have hlog : (2 : ℚ) ^ (mantissa.log2 : ℤ) ≤ mantissa := by exact_mod_cast Nat.log2_self_le hpos.ne'
  have hlog' : (mantissa' : ℚ) < 2 ^ ((mantissa'.log2 : ℤ) + 1) := by exact_mod_cast Nat.lt_log2_self (n := mantissa')
  change (mantissa : ℚ) * 2 ^ exponent / (mantissa' * 2 ^ exponent') < overflow at h
  rw [div_lt_iff₀ hdivisor] at h
  refine (zpow_lt_zpow_iff_right₀ (one_lt_two (α := ℚ))).mp ?_
  calc (2 : ℚ) ^ ((mantissa.log2 : ℤ) + exponent)
      = 2 ^ (mantissa.log2 : ℤ) * 2 ^ exponent := zpow_add₀ two_ne_zero _ _
    _ ≤ mantissa * 2 ^ exponent := mul_le_mul_of_nonneg_right hlog (zpow_nonneg two_pos.le _)
    _ < overflow * (mantissa' * 2 ^ exponent') := h
    _ ≤ 2 ^ (1024 : ℤ) * (mantissa' * 2 ^ exponent') := mul_le_mul_of_nonneg_right hbelow.le hdivisor.le
    _ ≤ 2 ^ (1024 : ℤ) * (2 ^ ((mantissa'.log2 : ℤ) + 1) * 2 ^ exponent') :=
        mul_le_mul_of_nonneg_left (mul_le_mul_of_nonneg_right hlog'.le hscale.le) (zpow_nonneg two_pos.le _)
    _ = 2 ^ (1024 + ((mantissa'.log2 : ℤ) + 1 + exponent')) := by rw [← zpow_add₀ two_ne_zero, ← zpow_add₀ two_ne_zero]

/-- A quotient is finite unless it reaches the overflow. -/
theorem isFinite_div (ha : a.isFinite = true) (hb : 0 < magnitude b.toModel.unpack)
    (h : magnitude a.toModel.unpack / magnitude b.toModel.unpack < overflow) : (a / b).isFinite = true := by
  change (pack (UnpackedFloat.div Format.binary64 a.toModel.unpack b.toModel.unpack)).isFinite = true
  match hunpack' : b.toModel.unpack with
  | .zero _ | .infinity _ | .notANumber =>
    rw [hunpack'] at hb
    exact absurd hb (lt_irrefl 0)
  | .finite sign' mantissa' exponent' hpos' =>
    rcases finite_cases ha with ⟨sign, hunpack⟩ | ⟨sign, mantissa, exponent, hpos, hunpack⟩
    · rw [hunpack]
      exact isFinite_pack_zero _
    · rw [hunpack, hunpack'] at h
      rw [hunpack]
      simp only [UnpackedFloat.div, divCore]
      obtain ⟨target, htarget⟩ : ∃ target, target = min (exponent - exponent') (Format.binary64.targetExponent
        (totalExponent mantissa exponent - totalExponent mantissa' exponent')) := ⟨_, rfl⟩
      rw [← htarget]
      have hscaled : magnitude (.finite sign mantissa exponent hpos) / magnitude (.finite sign' mantissa' exponent' hpos') /
          2 ^ target = ((mantissa <<< (exponent - exponent' - target).toNat : ℕ) : ℚ) / mantissa' := by
        have hpower : (2 : ℚ) ^ exponent = 2 ^ ((exponent - exponent' - target).toNat : ℤ) * 2 ^ exponent' * 2 ^ target := by
          rw [← zpow_add₀ two_ne_zero, ← zpow_add₀ two_ne_zero]
          congr 1
          omega
        have hmantissa' : (mantissa' : ℚ) ≠ 0 := Nat.cast_ne_zero.mpr hpos'.ne'
        change (mantissa : ℚ) * 2 ^ exponent / (mantissa' * 2 ^ exponent') / 2 ^ target = _
        rw [cast_shiftLeft, hpower]
        field_simp
      refine isFinite_round ?_ ?_ h
      · rw [hscaled]
        exact tells_accuracyOfFraction hpos'
      · have hbound := digits_quotient_lt hpos hpos' h
        rw [targetExponent_binary64] at htarget
        simp only [totalExponent] at htarget
        omega

/-- A number stays finite when it is divided by one that is not below one. -/
theorem isFinite_div_of_one_le (ha : a.isFinite = true) (hb : 1 ≤ magnitude b.toModel.unpack) : (a / b).isFinite = true := by
  refine isFinite_div ha (one_pos.trans_le hb) (lt_of_le_of_lt ?_ largest_lt_overflow)
  exact (div_le_self (magnitude_nonneg _) hb).trans (magnitude_le_largest a)

/-! ## Signs -/

/-- The other sign bit negates a float. -/
theorem unpack_packComponents_neg (sign : Sign) (exponent : BitVec 11) (mantissa : BitVec 52) :
    UnpackedFloat.unpack Format.binary64 (packComponents Format.binary64 (-sign) exponent mantissa) =
      (UnpackedFloat.unpack Format.binary64 (packComponents Format.binary64 sign exponent mantissa)).neg := by
  have hsign : Sign.ofBitVec (-sign).toBitVec = -(Sign.ofBitVec sign.toBitVec) := by cases sign <;> rfl
  unfold UnpackedFloat.unpack
  simp only [unpackMantissa_packComponents, unpackExponent_packComponents, unpackSign_packComponents, hsign]
  split_ifs <;> rfl

/-- The sign is packed apart from the rest. -/
theorem unpack_pack_neg (number : UnpackedFloat) : (pack number.neg).unpack = (pack number).unpack.neg := by
  cases number with
  | notANumber => rfl
  | infinity sign => exact unpack_packComponents_neg sign _ _
  | zero sign => exact unpack_packComponents_neg sign _ _
  | finite sign mantissa exponent hpos =>
    change UnpackedFloat.unpack Format.binary64 (UnpackedFloat.pack Format.binary64 (.finite (-sign) mantissa exponent hpos)) =
      (UnpackedFloat.unpack Format.binary64 (UnpackedFloat.pack Format.binary64 (.finite sign mantissa exponent hpos))).neg
    simp only [UnpackedFloat.pack]
    split_ifs
    · exact unpack_packComponents_neg sign _ _
    · exact unpack_packComponents_neg sign _ _
    · exact unpack_packComponents_neg sign _ _

/-- The negation of a finite number is finite. -/
theorem isFinite_neg (h : a.isFinite = true) : (-a).isFinite = true := by
  have hneg : (-a).toModel.unpack = (pack a.toModel.unpack).unpack.neg := unpack_pack_neg _
  have hpack : (pack a.toModel.unpack).isFinite = true := by
    rcases finite_cases h with ⟨sign, hunpack⟩ | ⟨sign, mantissa, exponent, hpos, hunpack⟩
    · rw [hunpack]
      exact isFinite_pack_zero sign
    · rw [hunpack]
      exact isFinite_pack hpos (unpack_bounds hunpack).2
  change (-a).toModel.unpack.isFinite = true
  change (pack a.toModel.unpack).unpack.isFinite = true at hpack
  rw [hneg]
  cases hunpack : (pack a.toModel.unpack).unpack with
  | zero sign => rfl
  | finite sign mantissa exponent hpos => rfl
  | infinity sign | notANumber =>
    rw [hunpack] at hpack
    cases hpack

/-- A finite number is finite with either sign. -/
theorem isFinite_withSign (negative : Bool) (h : a.isFinite = true) : (withSign negative a).isFinite = true := by
  cases negative with
  | true => exact isFinite_neg h
  | false => exact h

/-! ## Whole numbers and powers of ten -/

/-- A float that is near to a value is finite. -/
theorem Nears.isFinite {x : ℚ} (h : Nears a x) : a.isFinite = true := by
  obtain ⟨hpos, hunpack⟩ := h
  exact isFinite_of_finite hunpack

/-- Its magnitude is what the value is rounded to. -/
theorem Nears.magnitude_eq {x : ℚ} (h : Nears a x) : magnitude a.toModel.unpack = worth (rounded x) := by
  obtain ⟨hpos, hunpack⟩ := h
  rw [hunpack]
  rfl

/-- A whole number of up to a hundred digits makes a finite float. -/
theorem isFinite_ofNat {n : ℕ} (h : n < 2 ^ 100) : (Float.ofNat n).isFinite = true := by
  rcases Nat.eq_zero_or_pos n with rfl | hpos
  · rfl
  · exact (nears_ofNat hpos h).isFinite

/-- So does one with a sign. -/
theorem isFinite_ofInt {n : ℤ} (h : n.natAbs < 2 ^ 100) : (Float.ofInt n).isFinite = true := by
  cases n with
  | ofNat n => exact isFinite_ofNat h
  | negSucc n => exact isFinite_neg (isFinite_ofNat h)

/-- The largest mantissa with the largest exponent is worth the largest number. -/
theorem worth_largest : worth (2 ^ 53 - 1, 971) = largest := by
  have hdigits : ((2 ^ 53 - 1 : ℕ) : ℚ) = 2 ^ 53 - 1 := by norm_num
  rw [worth, largest, hdigits]

/-- What is rounded and packed is the number nearest to the result, up to the largest number. -/
theorem nears_of_round_of_le {mantissa : ℕ} {exponent : ℤ} {accuracy : Accuracy} {x : ℚ} (hmantissa : 0 < mantissa)
    (h : Tells accuracy (x / 2 ^ exponent - mantissa)) (hexponent : exponent ≤ exponentOf x) (hmin : -1074 ≤ exponentOf x)
    (hx : 0 < x) (hmax : x ≤ largest) :
    Nears (.ofModel (pack (roundWithAccuracy Format.binary64 .positive mantissa exponent accuracy))) x := by
  obtain ⟨hpos, hround⟩ := roundWithAccuracy_eq hmantissa h hexponent hmin
  obtain ⟨hlow, hhigh⟩ := rounded_bounds hx
  have hbelow := rounded_mono hx hmax
  rw [← worth_largest, rounded_worth (by norm_num) (by norm_num)] at hbelow
  have hexponent' : (rounded x).2 ≤ 971 := by
    rcases hbelow with hlt | ⟨heq, -⟩
    · exact hlt.le
    · exact heq.le
  refine ⟨hpos, ?_⟩
  rw [hround]
  exact unpack_pack hlow hhigh (hmin.trans (rounded_exponent_bounds x).1) hexponent' hpos

/-- Powers of ten up to the 308th do not exceed the largest number. -/
theorem powerOfTen_le_largest {n : ℕ} (h : n ≤ 308) : (10 : ℚ) ^ n ≤ largest := by
  have hpower : 10 ^ 308 ≤ (2 ^ 53 - 1) * 2 ^ 971 := by decide +kernel
  have hcast : (((2 ^ 53 - 1) * 2 ^ 971 : ℕ) : ℚ) = largest := by
    rw [← worth_largest, worth, Nat.cast_mul, Nat.cast_pow]
    rfl
  calc (10 : ℚ) ^ n
      ≤ 10 ^ 308 := pow_le_pow_right₀ (by norm_num) h
    _ = ((10 ^ 308 : ℕ) : ℚ) := by rw [Nat.cast_pow]; rfl
    _ ≤ (((2 ^ 53 - 1) * 2 ^ 971 : ℕ) : ℚ) := Nat.cast_le.mpr hpower
    _ = largest := hcast

/-- The powers of ten that are not tabulated. -/
theorem nears_powerOfTen_of_lt {n : ℕ} (hlow : 22 < n) (hhigh : n ≤ 308) : Nears (Float.ofScientific 1 false n) (10 ^ n) := by
  have hlog : exponentOf (10 ^ n) = (10 ^ n).log2 - 52 := by
    rw [← exponentOf_natCast, Nat.cast_pow]
    rfl
  have hrange : (2 : ℤ) ^ Format.binary64.exponentBits = 2048 := by norm_num
  have hfloat : Float.ofScientific 1 false n =
      .ofModel (pack (roundWithAccuracy Format.binary64 .positive (1 <<< 53 * 10 ^ n) (-53) .exact)) := by
    unfold Float.ofScientific
    rw [dif_neg fun hsmall => absurd hsmall.2 (Nat.not_le.mpr hlow)]
    change Float.ofModel (Float.Model.pack (UnpackedFloat.ofScientific Format.binary64 1 n)) = _
    unfold UnpackedFloat.ofScientific
    rw [dif_neg one_ne_zero, if_neg (by omega), if_neg (by omega), if_pos (Int.natCast_nonneg n)]
    rfl
  rw [hfloat]
  refine nears_of_round_of_le (Nat.mul_pos (by decide) (Nat.pow_pos (by decide))) (tells_exact ?_) ?_ ?_ (by positivity)
    (powerOfTen_le_largest hhigh)
  · rw [Nat.cast_mul, cast_shiftLeft, Nat.cast_pow, Nat.cast_one, one_mul, mul_right_comm, ← zpow_add₀ two_ne_zero]
    norm_num
  · rw [hlog]
    omega
  · rw [hlog]
    omega

/-- Whether a number is at least one, as far as its digits and its exponent tell. -/
def atLeastOne : UnpackedFloat → Bool
  | .finite .positive mantissa exponent _ => 2 ^ 52 ≤ mantissa && -52 ≤ exponent
  | _ => false

/-- A float that is at least one is finite with such a magnitude. -/
theorem one_le_magnitude {number : UnpackedFloat} (h : atLeastOne number = true) :
    number.isFinite = true ∧ 1 ≤ magnitude number := by
  match number, h with
  | .finite .positive mantissa exponent _, h =>
    simp only [atLeastOne, Bool.and_eq_true, decide_eq_true_eq] at h
    refine ⟨rfl, ?_⟩
    calc (1 : ℚ) = 2 ^ 52 * 2 ^ (-52 : ℤ) := by norm_num
      _ ≤ mantissa * 2 ^ exponent :=
        mul_le_mul (by exact_mod_cast h.1) (zpow_le_zpow_right₀ one_le_two h.2) (by positivity) (Nat.cast_nonneg mantissa)

/-- The powers of ten in the table are at least one. -/
theorem atLeastOne_powerOfTen : ∀ n < 23, atLeastOne (Float.ofScientific 1 false n).toModel.unpack = true := by
  decide +kernel

/-- A power of ten is not below one. -/
theorem one_le_magnitude_powerOfTen {n : ℕ} (h : n ≤ 308) :
    (Float.ofScientific 1 false n).isFinite = true ∧ 1 ≤ magnitude (Float.ofScientific 1 false n).toModel.unpack := by
  rcases Nat.lt_or_ge 22 n with hlarge | hsmall
  · have hnears := nears_powerOfTen_of_lt hlarge h
    refine ⟨hnears.isFinite, ?_⟩
    rw [hnears.magnitude_eq]
    have hone := worth_mono (rounded_bounds one_pos).2 (rounded_bounds (show (0 : ℚ) < 10 ^ n by positivity)).1
      (rounded_mono one_pos (one_le_pow₀ (by norm_num)))
    rwa [rounded_one, show worth (2 ^ 52, -52) = 1 by rw [worth]; norm_num] at hone
  · exact one_le_magnitude (atLeastOne_powerOfTen n (Nat.lt_succ_of_le hsmall))

/-- What is packed is a number or an infinity. -/
theorem isFinite_or_isInf_pack {number : UnpackedFloat} (h : number.isFinite = true) :
    (pack number).isFinite = true ∨ (pack number).isInf = true := by
  match number, h with
  | .zero sign, _ => exact Or.inl (isFinite_pack_zero sign)
  | .finite sign mantissa exponent hpos, _ =>
    rcases le_or_gt exponent 971 with hmax | hlarge
    · exact Or.inl (isFinite_pack hpos hmax)
    · right
      have hpack : UnpackedFloat.pack Format.binary64 (.finite sign mantissa exponent hpos) =
          packedInfinity Format.binary64 sign := by
        simp only [UnpackedFloat.pack]
        rw [exponentBias_binary64, if_pos]
        push_cast
        omega
      change (UnpackedFloat.unpack Format.binary64 (UnpackedFloat.pack Format.binary64 _)).isInf = true
      rw [hpack]
      cases sign <;> rfl

/-- A product is finite unless it is infinite. -/
theorem isFinite_mul (ha : a.isFinite = true) (hb : b.isFinite = true) (h : (a * b).isInf = false) :
    (a * b).isFinite = true := by
  have hproduct : (UnpackedFloat.mul Format.binary64 a.toModel.unpack b.toModel.unpack).isFinite = true := by
    rcases finite_cases ha with ⟨sign, hunpack⟩ | ⟨sign, mantissa, exponent, hpos, hunpack⟩
    · rcases finite_cases hb with ⟨sign', hunpack'⟩ | ⟨sign', mantissa', exponent', hpos', hunpack'⟩
      · rw [hunpack, hunpack']
        rfl
      · rw [hunpack, hunpack']
        rfl
    · rcases finite_cases hb with ⟨sign', hunpack'⟩ | ⟨sign', mantissa', exponent', hpos', hunpack'⟩
      · rw [hunpack, hunpack']
        rfl
      · rw [hunpack, hunpack']
        simp only [UnpackedFloat.mul, roundWithAccuracy]
        split_ifs <;> rfl
  rcases isFinite_or_isInf_pack hproduct with hfinite | hinfinite
  · exact hfinite
  · exact absurd (h.symm.trans hinfinite) Bool.false_ne_true

end TileDepot.Binary64
