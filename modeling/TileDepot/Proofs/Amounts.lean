import TileDepot.ByteSize.Basic
import TileDepot.Proofs.Number.Digits
import TileDepot.Proofs.Number.Finite

/-!
# Amounts and what they are converted back to

Dividing by a unit, which is a power of two, and multiplying by it again leaves the digits alone; a count of bytes is rounded
only when it becomes a number. So its amount is converted back to the count that it settles on, which is the count itself if that
is at most `2 ^ 53`.
-/

namespace TileDepot

namespace Binary64

open Float.Model Float.Model.UnpackedFloat

/-! ## Readings -/

/-- The lowest 52 bits of a number are its mantissa. -/
theorem toNat_unpackMantissa (bits : BitVec 64) : (@unpackMantissa Format.binary64 bits).toNat = bits.toNat % Nat.pow 2 52 := by
  simp [unpackMantissa]

/-- The next eleven bits are its exponent. -/
theorem toNat_unpackExponent (bits : BitVec 64) :
    (@unpackExponent Format.binary64 bits).toNat = bits.toNat / Nat.pow 2 52 % Nat.pow 2 11 := by
  simp [unpackExponent, Nat.shiftRight_eq_div_pow]

/-- The highest bit is its sign. -/
theorem toNat_unpackSign (bits : BitVec 64) : (@unpackSign Format.binary64 bits).toNat = bits.toNat / Nat.pow 2 63 := by
  have hbits := bits.isLt
  simp [unpackSign, Nat.shiftRight_eq_div_pow]
  omega

/-- A number is negative when its sign bit is set. -/
theorem ofBitVec_beq_negative (bit : BitVec 1) : (Sign.ofBitVec bit == .negative) = (bit.toNat == 1) := by
  revert bit
  decide

/-- The leading digit that is not stored adds `2 ^ 52` to the digits that are. -/
theorem toNat_one_append (digits : BitVec 52) : (1#1 ++ digits).toNat = Nat.pow 2 52 + digits.toNat := by
  rw [BitVec.toNat_append, ← Nat.shiftLeft_add_eq_or_of_lt digits.isLt, Nat.shiftLeft_eq]
  rfl

/-- An unpacked number as a reading. -/
def read : UnpackedFloat → Binary64
  | .notANumber => .nan
  | .infinity sign => .infinite (sign == .negative)
  | .zero sign => .finite (sign == .negative) 0 (-1074)
  | .finite sign mantissa exponent _ => .finite (sign == .negative) mantissa exponent

/-- The reading of a number is that of what is unpacked. -/
theorem ofFloat_eq_read (x : Float) : ofFloat x = read x.toModel.unpack := by
  have hmantissa := toNat_unpackMantissa x.toBits.toBitVec
  have hexponent := toNat_unpackExponent x.toBits.toBitVec
  have hsign := toNat_unpackSign x.toBits.toBitVec
  change _ = x.toBits.toNat % _ at hmantissa
  change _ = x.toBits.toNat / _ % _ at hexponent
  change _ = x.toBits.toNat / _ at hsign
  change ofFloat x = read (UnpackedFloat.unpack Format.binary64 x.toBits.toBitVec)
  unfold ofFloat
  dsimp only
  rw [← hmantissa, ← hexponent, ← hsign, ← ofBitVec_beq_negative]
  unfold UnpackedFloat.unpack
  dsimp only
  rw [exponentBias_binary64]
  have hmantissa' : (@unpackMantissa Format.binary64 x.toBits.toBitVec).toNat = 0 ↔
      @unpackMantissa Format.binary64 x.toBits.toBitVec = 0#_ := by
    rw [← BitVec.toNat_inj]
    rfl
  have hall : (@unpackExponent Format.binary64 x.toBits.toBitVec).toNat = 2047 ↔
      @unpackExponent Format.binary64 x.toBits.toBitVec = -1#_ := by
    rw [← BitVec.toNat_inj]
    rfl
  have hnone : (@unpackExponent Format.binary64 x.toBits.toBitVec).toNat = 0 ↔
      @unpackExponent Format.binary64 x.toBits.toBitVec = 0#_ := by
    rw [← BitVec.toNat_inj]
    rfl
  simp only [hall, hnone]
  split
  · simp only [hmantissa']
    split <;> rfl
  · split
    · rename_i hzero
      split
      · rename_i hmantissa
        rw [hmantissa'.mpr hmantissa]
        rfl
      · rw [hzero]
        rfl
    · rw [← toNat_one_append]
      rfl

/-- A finite number is read with the sign, the mantissa and the exponent that the model of floats has it with. -/
theorem ofFloat_of_unpack {x : Float} {sign : Sign} {mantissa : ℕ} {exponent : ℤ} {hpos : 0 < mantissa}
    (h : x.toModel.unpack = .finite sign mantissa exponent hpos) :
    ofFloat x = .finite (sign == .negative) mantissa exponent := by
  rw [ofFloat_eq_read, h]
  rfl

/-! ## What a number is exactly -/

/-- A number that is exactly a positive fraction with a sign. -/
def Denotes (number : Float) (sign : Sign) (x : ℚ) : Prop :=
  ∃ mantissa exponent hpos, number.toModel.unpack = .finite sign mantissa exponent hpos ∧ (mantissa : ℚ) * 2 ^ exponent = x

variable {number number' negated : Float} {sign : Sign} {x y : ℚ} {low high : ℤ}

/-- A number near to a value denotes what that value is rounded to. -/
theorem Nears.denotes (h : Nears number x) : Denotes number .positive (worth (rounded x)) := by
  obtain ⟨hpos, hunpack⟩ := h
  exact ⟨_, _, hpos, hunpack, rfl⟩

/-- The negation of a number denotes the same value with the other sign. -/
theorem Denotes.neg (h : Denotes number .positive x) (hneg : negated.toModel.unpack = number.toModel.unpack.neg) :
    Denotes negated .negative x := by
  obtain ⟨mantissa, exponent, hpos, hunpack, heq⟩ := h
  exact ⟨mantissa, exponent, hpos, by rw [hneg, hunpack]; rfl, heq⟩

/-- A mantissa and an exponent make a fraction: a whole number over a power of two. -/
theorem fraction_eq (mantissa : ℕ) (exponent : ℤ) :
    ((fraction mantissa exponent).1 : ℚ) = mantissa * 2 ^ exponent * (fraction mantissa exponent).2 := by
  have hnum : ((mantissa * Nat.pow 2 exponent.toNat : ℕ) : ℚ) = mantissa * 2 ^ (exponent.toNat : ℤ) := by
    rw [Nat.cast_mul, zpow_natCast]
    exact congrArg _ (Nat.cast_pow 2 _)
  have hden : ((Nat.pow 2 (-exponent).toNat : ℕ) : ℚ) = 2 ^ ((-exponent).toNat : ℤ) := by
    rw [zpow_natCast]
    exact Nat.cast_pow 2 _
  change ((mantissa * Nat.pow 2 exponent.toNat : ℕ) : ℚ) = mantissa * 2 ^ exponent * ((Nat.pow 2 (-exponent).toNat : ℕ) : ℚ)
  rw [hnum, hden, mul_assoc, ← zpow_add₀ two_ne_zero]
  congr 2
  omega

theorem fraction_den_pos (mantissa : ℕ) (exponent : ℤ) : 0 < (fraction mantissa exponent).2 := Nat.pow_pos two_pos

/-- A sign that is applied to a number negates it or leaves it alone. -/
theorem sign_apply_eq (sign : Sign) (n : ℕ) :
    (if (sign == .negative) = true then -(n : ℤ) else n) = sign.apply n := by
  cases sign <;> rfl

/-- A whole number is rounded to itself, within the range. -/
theorem Denotes.toInt_halfAway {n : ℕ} (h : Denotes number sign n) :
    (ofFloat number).toInt .halfAway low high = clamp low high (sign.apply n) := by
  obtain ⟨mantissa, exponent, hpos, hunpack, heq⟩ := h
  have hden := fraction_den_pos mantissa exponent
  have hnum : (fraction mantissa exponent).1 = n * (fraction mantissa exponent).2 := by
    have hfraction := fraction_eq mantissa exponent
    rw [heq] at hfraction
    exact_mod_cast hfraction
  have hround : roundFraction .halfAway (sign == .negative) (fraction mantissa exponent).1 (fraction mantissa exponent).2 =
      sign.apply n := by
    have hmagnitude : (2 * (fraction mantissa exponent).1 + (fraction mantissa exponent).2) /
        (2 * (fraction mantissa exponent).2) = n := by
      rw [hnum, show 2 * (n * (fraction mantissa exponent).2) + (fraction mantissa exponent).2 =
        (2 * n + 1) * (fraction mantissa exponent).2 by ring, Nat.mul_div_mul_right _ _ hden]
      omega
    unfold roundFraction
    dsimp only
    rw [← sign_apply_eq, ← hmagnitude]
    push_cast
    rfl
  rw [ofFloat_of_unpack hunpack]
  exact congrArg (clamp low high) hround

/-- A number that is whole is what its whole part is. -/
theorem Denotes.toInt_towardZero (h : Denotes number sign x) (hwhole : (ofFloat number).isWhole = true) :
    ∃ n : ℕ, x = n ∧ (ofFloat number).toInt .towardZero low high = clamp low high (sign.apply n) := by
  obtain ⟨mantissa, exponent, hpos, hunpack, heq⟩ := h
  have hden := fraction_den_pos mantissa exponent
  rw [ofFloat_of_unpack hunpack] at hwhole ⊢
  have hmantissa : Nat.pow 2 (-exponent).toNat ∣ mantissa := Nat.dvd_of_mod_eq_zero (beq_iff_eq.mp hwhole)
  obtain ⟨n, hn⟩ : (fraction mantissa exponent).2 ∣ (fraction mantissa exponent).1 := hmantissa.mul_right _
  have hround : roundFraction .towardZero (sign == .negative) (fraction mantissa exponent).1 (fraction mantissa exponent).2 =
      sign.apply n := by
    have hmagnitude : (fraction mantissa exponent).1 / (fraction mantissa exponent).2 = n := by
      rw [hn, Nat.mul_div_cancel_left n hden]
    unfold roundFraction
    dsimp only
    rw [← sign_apply_eq, ← hmagnitude]
    push_cast
    rfl
  refine ⟨n, ?_, ?_⟩
  · have hfraction := fraction_eq mantissa exponent
    rw [heq, hn, Nat.cast_mul, mul_comm] at hfraction
    exact (mul_right_cancel₀ (Nat.cast_ne_zero.mpr hden.ne') hfraction).symm
  · exact congrArg (clamp low high) hround

/-! ## Magnitudes -/

/-- All 53 digits are in use above the smallest exponent. -/
theorem le_mantissa_of_unpack {mantissa : ℕ} {exponent : ℤ} {hpos : 0 < mantissa}
    (h : number.toModel.unpack = .finite sign mantissa exponent hpos) (hexponent : -1074 < exponent) : 2 ^ 52 ≤ mantissa := by
  change UnpackedFloat.unpack Format.binary64 number.toBits.toBitVec = _ at h
  unfold UnpackedFloat.unpack at h
  dsimp only at h
  rw [exponentBias_binary64] at h
  split at h
  · split at h <;> cases h
  · split at h
    · rename_i hzero
      split at h
      · cases h
      · obtain ⟨-, -, rfl⟩ := UnpackedFloat.finite.inj h
        rw [hzero] at hexponent
        exact absurd hexponent (by norm_num)
    · obtain ⟨-, rfl, -⟩ := UnpackedFloat.finite.inj h
      rw [toNat_one_append]
      exact Nat.le_add_right _ _

/-- A whole number is below `2 ^ 53` when its absolute value compares so. -/
theorem Denotes.lt_of_abs_lt (h : Denotes number sign x) (hwhole : (ofFloat number).isWhole = true)
    (habs : number.abs < 9007199254740992.0) : x < 2 ^ 53 := by
  obtain ⟨mantissa, exponent, hpos, hunpack, rfl⟩ := h
  obtain ⟨hdigits, hmax⟩ := unpack_bounds hunpack
  rw [ofFloat_of_unpack hunpack] at hwhole
  have hplaces : 2 ^ (-exponent).toNat ≤ mantissa := Nat.le_of_dvd hpos (Nat.dvd_of_mod_eq_zero (beq_iff_eq.mp hwhole))
  have hmin : -53 < exponent := by
    have hlt : (-exponent).toNat < 53 := (Nat.pow_lt_pow_iff_right one_lt_two).mp (hplaces.trans_lt hdigits)
    omega
  have hnormal : 2 ^ 52 ≤ mantissa := le_mantissa_of_unpack hunpack (by omega)
  have hunpack' : number.abs.toModel.unpack = .finite .positive mantissa exponent hpos := by
    change (pack number.toModel.unpack.abs).unpack = _
    rw [hunpack]
    exact unpack_pack hnormal hdigits (by omega) hmax hpos
  have hlimit : (9007199254740992.0 : Float).toModel.unpack = .finite .positive (2 ^ 52) 1 (by norm_num) := rfl
  rw [lt_iff, hunpack', hlimit] at habs
  have hbelow := (lt_finite_iff (a := (mantissa, exponent)) (b := (2 ^ 52, 1)) hpos (by norm_num)).mp habs
  have hexponent : exponent ≤ 0 := by
    dsimp only at hbelow
    omega
  calc (mantissa : ℚ) * 2 ^ exponent
      ≤ mantissa * 1 := mul_le_mul_of_nonneg_left (zpow_le_one_of_nonpos₀ one_le_two hexponent) (Nat.cast_nonneg mantissa)
    _ = mantissa := mul_one _
    _ < 2 ^ 53 := by exact_mod_cast hdigits

/-! ## Negative numbers -/

/-- A moderate number outlives being packed with the other sign. -/
theorem Nears.unpack_neg (h : Nears number x) (hx : Moderate 900 x) : (-number).toModel.unpack = number.toModel.unpack.neg := by
  obtain ⟨hpos, hunpack⟩ := h
  obtain ⟨hlow, hhigh⟩ := rounded_bounds hx.pos
  obtain ⟨hexponent, hexponent'⟩ := rounded_exponent_bounds x
  have hmin := hx.low
  have hmax := hx.high
  change (pack number.toModel.unpack.neg).unpack = _
  rw [unpack_pack_neg, hunpack, unpack_pack hlow hhigh (by omega) (by omega) hpos]

/-- Rounding does not depend on the sign. -/
theorem roundWithAccuracy_neg (mantissa : ℕ) (exponent : ℤ) (accuracy : Accuracy) :
    roundWithAccuracy Format.binary64 .negative mantissa exponent accuracy =
      (roundWithAccuracy Format.binary64 .positive mantissa exponent accuracy).neg := by
  simp only [roundWithAccuracy]
  split_ifs <;> rfl

/-- The sign of what is divided is the sign of the quotient. -/
theorem Nears.unpack_div_neg (h : Nears number x) (h' : Nears number' y) (hneg : negated.toModel.unpack = number.toModel.unpack.neg) :
    (negated / number').toModel.unpack = (number / number').toModel.unpack.neg := by
  obtain ⟨hpos, hunpack⟩ := h
  obtain ⟨hpos', hunpack'⟩ := h'
  change (pack (UnpackedFloat.div _ negated.toModel.unpack number'.toModel.unpack)).unpack =
    (pack (UnpackedFloat.div _ number.toModel.unpack number'.toModel.unpack)).unpack.neg
  rw [hneg, hunpack, hunpack', ← unpack_pack_neg]
  exact congrArg (fun number => (pack number).unpack) (roundWithAccuracy_neg _ _ _)

/-- The sign of what is multiplied is the sign of the product. -/
theorem Nears.unpack_mul_neg (h : Nears number x) (h' : Nears number' y) (hneg : negated.toModel.unpack = number.toModel.unpack.neg) :
    (negated * number').toModel.unpack = (number * number').toModel.unpack.neg := by
  obtain ⟨hpos, hunpack⟩ := h
  obtain ⟨hpos', hunpack'⟩ := h'
  change (pack (UnpackedFloat.mul _ negated.toModel.unpack number'.toModel.unpack)).unpack =
    (pack (UnpackedFloat.mul _ number.toModel.unpack number'.toModel.unpack)).unpack.neg
  rw [hneg, hunpack, hunpack', ← unpack_pack_neg]
  exact congrArg (fun number => (pack number).unpack) (roundWithAccuracy_neg _ _ _)

end Binary64

namespace ByteSize

open Binary64 Float.Model Float.Model.UnpackedFloat

/-! ## Amounts of a unit -/

/-- The bytes of a unit are a power of two. -/
theorem cast_unit_bytes (unit : ByteUnit) : (unit.bytes : ℚ) = 2 ^ ((10 * unit.power : ℕ) : ℤ) := by
  rw [zpow_natCast, pow_mul]
  change ((1024 ^ unit.power : ℕ) : ℚ) = _
  rw [Nat.cast_pow]
  norm_num

/-- The largest unit has `2 ^ 50` bytes. -/
theorem unit_bytes_le (unit : ByteUnit) : unit.bytes ≤ 2 ^ 50 := by
  cases unit <;> decide

/-- The bytes of a unit. -/
theorem nears_unit (unit : ByteUnit) : Nears (.ofNat unit.bytes) unit.bytes ∧ worth (rounded unit.bytes) = unit.bytes ∧
    Moderate 400 unit.bytes := by
  have hbound : unit.bytes < 2 ^ 100 := (unit_bytes_le unit).trans_lt (by norm_num)
  refine ⟨nears_ofNat unit.bytes_pos hbound, ?_, (moderate_natCast unit.bytes_pos hbound).mono (by norm_num)⟩
  rw [cast_unit_bytes, worth_rounded_two_zpow]

/-- A count of up to `2 ^ 127` is a number of moderate size. -/
theorem moderate_count {n : ℕ} (hpos : 0 < n) (h : n ≤ 2 ^ 127) : Moderate 400 n := by
  obtain ⟨hlow, hhigh⟩ := natCast_bounds hpos h
  exact moderate_of_bounds ((zpow_le_zpow_right₀ one_le_two (by norm_num)).trans hlow)
    (hhigh.trans (zpow_le_zpow_right₀ one_le_two (by norm_num)))

/-- A positive count as an amount, and the amount taken back: the count has settled. -/
theorem denotes_amount {n : ℕ} (unit : ByteUnit) (hpos : 0 < n) (h : n ≤ 2 ^ 127) :
    Nears (.ofNat n / .ofNat unit.bytes) (settled n / unit.bytes) ∧
      Denotes (.ofNat n / .ofNat unit.bytes) .positive (settled n / unit.bytes) ∧
      Denotes (.ofNat n / .ofNat unit.bytes * .ofNat unit.bytes) .positive (settled n) := by
  obtain ⟨hunit, hexact, hmoderate⟩ := nears_unit unit
  have hbytes := unit_bytes_le unit
  have hcount := moderate_count hpos h
  have hsettled := cast_settled hpos
  have hquotient : worth (rounded (settled n / unit.bytes)) = settled n / unit.bytes := by
    rw [hsettled, cast_unit_bytes, div_eq_mul_inv, ← zpow_neg, worth_rounded_mul hcount.pos]
  have hwhole : worth (rounded (settled n)) = settled n := by
    have hmul := worth_rounded_mul hcount.pos 0
    rwa [zpow_zero, mul_one, ← hsettled] at hmul
  have hamount := nears_div (nears_natCast hpos hcount) hunit hcount hmoderate
  rw [hexact, ← hsettled] at hamount
  obtain ⟨hlow, hhigh⟩ := natCast_bounds hpos h
  obtain ⟨hlow', hhigh'⟩ := natCast_bounds unit.bytes_pos hbytes
  obtain ⟨hleast, hmost⟩ := worth_rounded_bounds hlow hhigh
  rw [← hsettled] at hleast hmost
  obtain ⟨hbelow, habove⟩ := div_bounds hleast hmost hlow' hhigh'
  have hproduct := nears_mul hamount hunit (moderate_of_bounds ((zpow_le_zpow_right₀ one_le_two (by norm_num)).trans hbelow)
    (habove.trans (zpow_le_zpow_right₀ one_le_two (by norm_num)))) hmoderate
  rw [hquotient, hexact, div_mul_cancel₀ _ (Nat.cast_ne_zero.mpr unit.bytes_pos.ne')] at hproduct
  exact ⟨hamount, hquotient ▸ hamount.denotes, hwhole ▸ hproduct.denotes⟩

/-- A count that is not zero as an amount, and the amount taken back. -/
theorem denotes_of_ne_zero {bytes : ℤ} (unit : ByteUnit) (hne : bytes ≠ 0) (h : bytes.natAbs ≤ 2 ^ 127) :
    ∃ sign : Sign, bytes = sign.apply bytes.natAbs ∧
      Denotes (.ofInt bytes / .ofNat unit.bytes) sign (settled bytes.natAbs / unit.bytes) ∧
      Denotes (.ofInt bytes / .ofNat unit.bytes * .ofNat unit.bytes) sign (settled bytes.natAbs) := by
  obtain ⟨hunit, -, -⟩ := nears_unit unit
  cases bytes with
  | ofNat n =>
    have hpos : 0 < n := Nat.pos_of_ne_zero fun heq => hne (congrArg Int.ofNat heq)
    exact ⟨.positive, rfl, (denotes_amount unit hpos h).2⟩
  | negSucc n =>
    have hmoderate := moderate_count (Nat.succ_pos n) h
    have hcount := nears_natCast (Nat.succ_pos n) hmoderate
    have hneg := hcount.unpack_neg (hmoderate.mono (by norm_num))
    have hquotient := hcount.unpack_div_neg hunit hneg
    obtain ⟨hamount, hdenotes, hdenotes'⟩ := denotes_amount unit (Nat.succ_pos n) h
    exact ⟨.negative, rfl, hdenotes.neg hquotient, hdenotes'.neg (hamount.unpack_mul_neg hunit hquotient)⟩

/-- The bytes that a word holds are at most `2 ^ 127`, whatever their sign. -/
theorem natAbs_le_of_mem {bytes : ℤ} (hlow : minInt128 ≤ bytes) (hhigh : bytes ≤ maxInt128) : bytes.natAbs ≤ 2 ^ 127 := by
  have hmin : minInt128 = -2 ^ 127 := by decide
  have hmax : maxInt128 = 2 ^ 127 - 1 := by decide
  omega

/-- Bytes below `2 ^ 127`, whatever their sign, fit in a word. -/
theorem mem_of_natAbs_lt {bytes : ℤ} (h : bytes.natAbs < 2 ^ 127) : minInt128 ≤ bytes ∧ bytes ≤ maxInt128 := by
  have hmin : minInt128 = -2 ^ 127 := by decide
  have hmax : maxInt128 = 2 ^ 127 - 1 := by decide
  omega

/-- The sign of bytes that are not zero, times a number, is that number with their sign. -/
theorem sign_mul_natCast {sign : Sign} {bytes : ℤ} (hne : bytes ≠ 0) (h : bytes = sign.apply bytes.natAbs) (n : ℕ) :
    bytes.sign * n = sign.apply n := by
  cases sign with
  | positive =>
    rw [Int.sign_eq_one_of_pos (lt_of_le_of_ne (h ▸ Int.natCast_nonneg _) hne.symm)]
    exact one_mul _
  | negative =>
    rw [Int.sign_eq_neg_one_of_neg (lt_of_le_of_ne (h ▸ Int.neg_nonpos_of_nonneg (Int.natCast_nonneg _)) hne)]
    exact neg_one_mul _

/-- A factor that is not negative can be taken under the sign. -/
theorem apply_mul_natCast (sign : Sign) (n factor : ℕ) : sign.apply n * factor = sign.apply (n * factor : ℕ) := by
  cases sign with
  | positive => exact (Int.natCast_mul n factor).symm
  | negative => exact (Int.neg_mul _ _).trans (congrArg Neg.neg (Int.natCast_mul n factor).symm)

/-- The bytes of the amount that a count of bytes is: what the count settles on, within the range. -/
theorem toBytes_amount {bytes : ℤ} (unit : ByteUnit) (h : bytes.natAbs ≤ 2 ^ 127) :
    unit.toBytes (.ofInt bytes / .ofNat unit.bytes) = clamp minInt128 maxInt128 (bytes.sign * settled bytes.natAbs) := by
  rcases eq_or_ne bytes 0 with rfl | hne
  · cases unit <;> decide +kernel
  · obtain ⟨sign, hsign, hamount, hproduct⟩ := denotes_of_ne_zero unit hne h
    rw [sign_mul_natCast hne hsign]
    unfold ByteUnit.toBytes
    dsimp only
    split
    · rename_i hbranch
      obtain ⟨hwhole, habs⟩ := Bool.and_eq_true_iff.mp hbranch
      obtain ⟨n, hquotient, hint⟩ : ∃ n : ℕ, (settled bytes.natAbs / unit.bytes : ℚ) = n ∧ _ =
        clamp minInt128 maxInt128 (sign.apply n) := hamount.toInt_towardZero hwhole
      have hlt : n < 2 ^ 53 := by
        have hbelow := hamount.lt_of_abs_lt hwhole (of_decide_eq_true habs)
        rw [hquotient] at hbelow
        exact_mod_cast hbelow
      rw [div_eq_iff (Nat.cast_ne_zero.mpr unit.bytes_pos.ne')] at hquotient
      have hcount : settled bytes.natAbs = n * unit.bytes := by exact_mod_cast hquotient
      have hproduct' : n * unit.bytes < 2 ^ 127 := by
        calc n * unit.bytes ≤ n * 2 ^ 50 := Nat.mul_le_mul_left n (unit_bytes_le unit)
          _ < 2 ^ 53 * 2 ^ 50 := Nat.mul_lt_mul_of_pos_right hlt (Nat.two_pow_pos 50)
          _ ≤ 2 ^ 127 := by norm_num
      obtain ⟨hlow, hhigh⟩ := mem_of_natAbs_lt ((natAbs_apply sign n).trans_lt (hlt.trans (by norm_num)))
      obtain ⟨hlow', hhigh'⟩ := mem_of_natAbs_lt ((natAbs_apply sign _).trans_lt hproduct')
      rw [hint, clamp_of_mem hlow hhigh, apply_mul_natCast, hcount, clamp_of_mem hlow' hhigh']
    · exact hproduct.toInt_halfAway

/-- The size of an amount is the size that the amount is of. -/
theorem ofAmount_amount (size : ByteSize) (h : size.bytes.natAbs ≤ 2 ^ 53) : ofAmount size.amount size.unit = size := by
  obtain ⟨hlow, hhigh⟩ := mem_of_natAbs_lt (h.trans_lt (by norm_num))
  have hbytes : size.unit.toBytes size.amount = size.bytes := by
    rw [amount, toBytes_amount size.unit (h.trans (by norm_num)), settled_of_fewDigits (fewDigits_of_le h),
      Int.sign_mul_natAbs, clamp_of_mem hlow hhigh]
  exact congrArg (ByteSize.mk · size.unit) hbytes

end ByteSize

end TileDepot
