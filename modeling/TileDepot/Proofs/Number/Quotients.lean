import Mathlib
import TileDepot.Proofs.Number.Rounding

/-!
# Quotients of sizes

A size becomes the binary64 number nearest to it, and a quotient of sizes the one nearest to the quotient of these. So it
grows with the size that is divided, and reaches one as soon as that size reaches the other.
-/

namespace TileDepot.Binary64

open Float.Model Float.Model.UnpackedFloat

/-! ## Packing -/

/-- The sign that was packed is unpacked. -/
theorem unpackSign_packComponents (sign : Sign) (exponent : BitVec 11) (mantissa : BitVec 52) :
    unpackSign (packComponents Format.binary64 sign exponent mantissa) = sign.toBitVec := by
  change (sign.toBitVec ++ exponent ++ mantissa).extractLsb' 63 1 = sign.toBitVec
  rw [BitVec.extractLsb'_append_eq_of_le (by decide), BitVec.extractLsb'_append_eq_of_le (by decide)]
  exact BitVec.extractLsb'_eq_self

/-- The leading digit is not packed, and comes back. -/
theorem toNat_leading_append {mantissa : ℕ} (hlow : 2 ^ 52 ≤ mantissa) (hhigh : mantissa < 2 ^ 53) :
    (1#1 ++ BitVec.ofNat 52 mantissa).toNat = mantissa := by
  rw [BitVec.toNat_append, ← Nat.shiftLeft_add_eq_or_of_lt (BitVec.isLt _), Nat.shiftLeft_eq]
  simp only [BitVec.toNat_ofNat]
  omega

/-- A mantissa of 53 digits with an exponent in range outlives being packed. -/
theorem unpack_pack {mantissa : ℕ} {exponent : ℤ} (hlow : 2 ^ 52 ≤ mantissa) (hhigh : mantissa < 2 ^ 53)
    (hmin : -1074 ≤ exponent) (hmax : exponent ≤ 971) (hpos : 0 < mantissa) :
    (pack (.finite .positive mantissa exponent hpos)).unpack = .finite .positive mantissa exponent hpos := by
  have hlog : mantissa.log2 + 1 = Format.binary64.mantissaBits := by
    have hle := (Nat.le_log2 hpos.ne').mpr hlow
    have hlt := (Nat.log2_lt hpos.ne').mpr hhigh
    change mantissa.log2 + 1 = 53
    omega
  obtain ⟨biased, hbiased⟩ : ∃ biased : ℕ, exponent = (biased : ℤ) - 1075 := ⟨(exponent + 1075).toNat, by omega⟩
  have hpack : UnpackedFloat.pack Format.binary64 (.finite .positive mantissa exponent hpos) =
      packComponents Format.binary64 .positive (BitVec.ofNat 11 biased) (BitVec.ofNat 52 mantissa) := by
    have hexp : (exponent + Format.binary64.exponentBias + Format.binary64.mantissaBitsWithoutImplicit).toNat = biased := by
      change (exponent + 1023 + 52).toNat = biased
      omega
    simp only [UnpackedFloat.pack]
    rw [hexp, if_neg, if_pos hlog]
    omega
  have htoNat : (BitVec.ofNat 11 biased).toNat = biased := Nat.mod_eq_of_lt (by omega)
  change UnpackedFloat.unpack Format.binary64 (UnpackedFloat.pack Format.binary64 _) = _
  rw [hpack, UnpackedFloat.unpack]
  simp only [unpackMantissa_packComponents, unpackExponent_packComponents, unpackSign_packComponents]
  rw [if_neg, if_neg]
  · congr 1
    · exact toNat_leading_append hlow hhigh
    · rw [htoNat, hbiased]
      rfl
  · intro h
    have hzero : biased = 0 := htoNat.symm.trans (congrArg BitVec.toNat h)
    omega
  · intro h
    have hall : biased = 2047 := htoNat.symm.trans (congrArg BitVec.toNat h)
    omega

/-! ## Numbers nearest to a fraction -/

/-- A number that is the one nearest to a positive fraction. -/
def Nears (number : Float) (x : ℚ) : Prop :=
  ∃ hpos, number.toModel.unpack = .finite .positive (rounded x).1 (rounded x).2 hpos

/-- A float is near to all values that are rounded alike. -/
theorem Nears.congr {number : Float} {x y : ℚ} (h : Nears number x) (heq : rounded x = rounded y) : Nears number y := by
  unfold Nears at h ⊢
  rwa [← heq]

/-- A positive fraction whose exponent is bounded. -/
structure Moderate (bound : ℤ) (x : ℚ) : Prop where
  pos : 0 < x
  low : -bound ≤ exponentOf x
  high : exponentOf x ≤ bound

/-- A value within bounds is within wider bounds. -/
theorem Moderate.mono {bound bound' : ℤ} {x : ℚ} (h : Moderate bound x) (hbound : bound ≤ bound') : Moderate bound' x :=
  ⟨h.pos, (Int.neg_le_neg hbound).trans h.low, h.high.trans hbound⟩

/-- What is rounded and packed is the number nearest to the result. -/
theorem nears_of_round {mantissa : ℕ} {exponent : ℤ} {accuracy : Accuracy} {x : ℚ} (hx : Moderate 900 x)
    (hmantissa : 0 < mantissa) (h : Tells accuracy (x / 2 ^ exponent - mantissa)) (hexp : exponent ≤ exponentOf x) :
    Nears (.ofModel (pack (roundWithAccuracy Format.binary64 .positive mantissa exponent accuracy))) x := by
  have hlow := hx.low
  have hhigh := hx.high
  obtain ⟨hpos, hround⟩ := roundWithAccuracy_eq hmantissa h hexp (by omega)
  obtain ⟨hle, hlt⟩ := rounded_bounds hx.pos
  obtain ⟨hexp, hexp'⟩ := rounded_exponent_bounds x
  refine ⟨hpos, ?_⟩
  rw [hround]
  exact unpack_pack hle hlt (by omega) (by omega) hpos

/-! ## Comparisons -/

/-- Of two positive floats with normal mantissas the lesser has the lesser exponent, or else the lesser mantissa. -/
theorem lt_finite_iff {a b : ℕ × ℤ} (ha : 0 < a.1) (hb : 0 < b.1) :
    UnpackedFloat.lt (.finite .positive a.1 a.2 ha) (.finite .positive b.1 b.2 hb) = true ↔
      a.2 < b.2 ∨ a.2 = b.2 ∧ a.1 < b.1 := by
  change (some ((compare a.2 b.2).then (compare a.1 b.1)) == some .lt) = true ↔ _
  rw [beq_iff_eq, Option.some_inj, Ordering.then_eq_lt, compare_lt_iff_lt, compare_eq_iff_eq, compare_lt_iff_lt]

/-- One of two such floats is at most the other when it is not above it. -/
theorem le_finite_iff {a b : ℕ × ℤ} (ha : 0 < a.1) (hb : 0 < b.1) :
    UnpackedFloat.le (.finite .positive a.1 a.2 ha) (.finite .positive b.1 b.2 hb) = true ↔ NotAbove a b := by
  change ((compare a.2 b.2).then (compare a.1 b.1)).isLE = true ↔ _
  rw [Ordering.isLE_then_iff_or, compare_lt_iff_lt, compare_eq_iff_eq, Std.isLE_compare, NotAbove]

/-- What lies below a number lies below every number that is not smaller. -/
theorem lt_of_notAbove {number : UnpackedFloat} {a b : ℕ × ℤ} (ha : 0 < a.1) (hb : 0 < b.1) (h : NotAbove a b)
    (hlt : number.lt (.finite .positive a.1 a.2 ha) = true) : number.lt (.finite .positive b.1 b.2 hb) = true := by
  match number, hlt with
  | .infinity .negative, _ | .zero _, _ | .finite .negative .., _ => rfl
  | .finite .positive mantissa exponent hpos, hlt =>
    rcases (lt_finite_iff (a := (mantissa, exponent)) hpos ha).mp hlt with hfar | ⟨hsame, hnear⟩
    · refine (lt_finite_iff (a := (mantissa, exponent)) hpos hb).mpr ?_
      unfold NotAbove at h
      omega
    · refine (lt_finite_iff (a := (mantissa, exponent)) hpos hb).mpr ?_
      unfold NotAbove at h
      omega

/-- What is at most one such float is at most another one above it. -/
theorem le_of_notAbove {number : UnpackedFloat} {a b : ℕ × ℤ} (ha : 0 < a.1) (hb : 0 < b.1) (h : NotAbove a b)
    (hle : number.le (.finite .positive a.1 a.2 ha) = true) : number.le (.finite .positive b.1 b.2 hb) = true := by
  match number, hle with
  | .infinity .negative, _ | .zero _, _ | .finite .negative .., _ => rfl
  | .finite .positive mantissa exponent hpos, hle =>
    have hbelow := (le_finite_iff (a := (mantissa, exponent)) hpos ha).mp hle
    refine (le_finite_iff (a := (mantissa, exponent)) hpos hb).mpr ?_
    unfold NotAbove at h hbelow ⊢
    omega

/-- Floats are compared as they are unpacked. -/
theorem lt_iff (a b : Float) : a < b ↔ a.toModel.unpack.lt b.toModel.unpack = true := decide_eq_true_iff

/-- So it is for at most. -/
theorem le_iff (a b : Float) : a ≤ b ↔ a.toModel.unpack.le b.toModel.unpack = true := decide_eq_true_iff

variable {bound number number' : Float} {x y : ℚ}

/-- Where a number is above a bound, so is one that is nearest to a fraction that is not smaller. -/
theorem Nears.lt_of_le (h : Nears number x) (h' : Nears number' y) (hx : 0 < x) (hxy : x ≤ y) (hlt : bound < number) :
    bound < number' := by
  obtain ⟨hpos, hunpack⟩ := h
  obtain ⟨hpos', hunpack'⟩ := h'
  rw [lt_iff, hunpack] at hlt
  rw [lt_iff, hunpack']
  exact lt_of_notAbove hpos hpos' (rounded_mono hx hxy) hlt

/-- A bound below a float stays below one that is near to a greater value. -/
theorem Nears.le_of_le (h : Nears number x) (h' : Nears number' y) (hx : 0 < x) (hxy : x ≤ y) (hle : bound ≤ number) :
    bound ≤ number' := by
  obtain ⟨hpos, hunpack⟩ := h
  obtain ⟨hpos', hunpack'⟩ := h'
  rw [le_iff, hunpack] at hle
  rw [le_iff, hunpack']
  exact le_of_notAbove hpos hpos' (rounded_mono hx hxy) hle

/-! ## Sizes -/

/-- The float for one is near to one. -/
theorem nears_one : Nears 1.0 1 := by
  unfold Nears
  rw [rounded_one]
  exact ⟨by norm_num, rfl⟩

/-- The exponent of a whole number goes by its logarithm. -/
theorem exponentOf_natCast (n : ℕ) : exponentOf n = n.log2 - 52 := by
  rw [exponentOf, Int.log_natCast, Nat.log2_eq_log_two]

/-- A whole number of up to a hundred digits is of moderate size. -/
theorem moderate_natCast {n : ℕ} (hn : 0 < n) (hbound : n < 2 ^ 100) : Moderate 100 n := by
  have hlog := (Nat.log2_lt hn.ne').mpr hbound
  refine ⟨Nat.cast_pos.mpr hn, ?_, ?_⟩
  · rw [exponentOf_natCast]
    omega
  · rw [exponentOf_natCast]
    omega

/-- A mantissa of 53 digits has the logarithm 52. -/
theorem log2_eq_of_bounds {mantissa : ℕ} (hlow : 2 ^ 52 ≤ mantissa) (hhigh : mantissa < 2 ^ 53) : mantissa.log2 = 52 := by
  have hpos : mantissa ≠ 0 := ((Nat.two_pow_pos 52).trans_le hlow).ne'
  have hle := (Nat.le_log2 hpos).mpr hlow
  have hlt := (Nat.log2_lt hpos).mpr hhigh
  omega

/-- A value without a rest is told exactly. -/
theorem tells_exact {mantissa : ℕ} {exponent : ℤ} {x : ℚ} (h : x = mantissa * 2 ^ exponent) :
    Tells .exact (x / 2 ^ exponent - mantissa) := by
  have hpos : (0 : ℚ) < 2 ^ exponent := by positivity
  change x / 2 ^ exponent - mantissa = 0
  rw [h, mul_div_cancel_right₀ _ hpos.ne', sub_self]

/-- The exponent of what a mantissa and an exponent are worth is that exponent. -/
theorem exponentOf_worth {a : ℕ × ℤ} (hlow : 2 ^ 52 ≤ a.1) (hhigh : a.1 < 2 ^ 53) : exponentOf (worth a) = a.2 := by
  rw [exponentOf_eq ((Nat.two_pow_pos 52).trans_le hlow) (tells_exact (x := worth a) rfl), log2_eq_of_bounds hlow hhigh]
  omega

/-- A mantissa of 53 digits with its exponent stands for a number that is rounded to itself. -/
theorem rounded_worth {a : ℕ × ℤ} (hlow : 2 ^ 52 ≤ a.1) (hhigh : a.1 < 2 ^ 53) : rounded (worth a) = a := by
  have hscaled : worth a / 2 ^ a.2 = a.1 := mul_div_cancel_right₀ _ (zpow_pos two_pos a.2).ne'
  unfold rounded
  rw [exponentOf_worth hlow hhigh, hscaled, nearest_natCast, if_neg hhigh.ne]

/-! ## Ranges -/

/-- Powers of two are not rounded. -/
theorem worth_rounded_two_zpow (k : ℤ) : worth (rounded (2 ^ k)) = 2 ^ k := by
  have hpower : worth (2 ^ 52, k - 52) = 2 ^ k := by
    rw [worth, zpow_sub₀ two_ne_zero]
    norm_num
    field_simp
  rw [← hpower, rounded_worth le_rfl (by norm_num)]

/-- Rounding does not leave a range between powers of two. -/
theorem worth_rounded_bounds {x : ℚ} {j k : ℤ} (hlow : 2 ^ j ≤ x) (hhigh : x ≤ 2 ^ k) :
    2 ^ j ≤ worth (rounded x) ∧ worth (rounded x) ≤ 2 ^ k := by
  have hj : (0 : ℚ) < 2 ^ j := zpow_pos two_pos j
  have hx : 0 < x := hj.trans_le hlow
  have hk : (0 : ℚ) < 2 ^ k := zpow_pos two_pos k
  constructor
  · rw [← worth_rounded_two_zpow j]
    exact worth_mono (rounded_bounds hj).2 (rounded_bounds hx).1 (rounded_mono hj hlow)
  · rw [← worth_rounded_two_zpow k]
    exact worth_mono (rounded_bounds hx).2 (rounded_bounds hk).1 (rounded_mono hx hhigh)

/-- A value between moderate powers of two is of moderate size. -/
theorem moderate_of_bounds {x : ℚ} (hlow : 2 ^ (-300 : ℤ) ≤ x) (hhigh : x ≤ 2 ^ (300 : ℤ)) : Moderate 400 x := by
  have hx : 0 < x := (zpow_pos two_pos (-300)).trans_le hlow
  have hlog := (Int.zpow_le_iff_le_log (b := 2) Nat.one_lt_two hx).mp hlow
  have hlog' := Int.log_mono_right (b := 2) hx hhigh
  rw [show ((2 : ℚ) ^ (300 : ℤ)) = ((2 : ℕ) : ℚ) ^ (300 : ℤ) from rfl, Int.log_zpow Nat.one_lt_two] at hlog'
  refine ⟨hx, ?_, ?_⟩
  · unfold exponentOf
    omega
  · unfold exponentOf
    omega

/-- A quotient lies between the quotients of the bounds. -/
theorem div_bounds {x y : ℚ} {i j k l : ℤ} (hx : 2 ^ i ≤ x) (hx' : x ≤ 2 ^ j) (hy : 2 ^ k ≤ y) (hy' : y ≤ 2 ^ l) :
    2 ^ (i - l) ≤ x / y ∧ x / y ≤ 2 ^ (j - k) := by
  have hk : (0 : ℚ) < 2 ^ k := zpow_pos two_pos k
  have hpos : 0 < x := (zpow_pos two_pos i).trans_le hx
  rw [zpow_sub₀ two_ne_zero, zpow_sub₀ two_ne_zero]
  exact ⟨div_le_div₀ hpos.le hx (hk.trans_le hy) hy', div_le_div₀ (hpos.le.trans hx') hx' hk hy⟩

/-- A whole number lies between one and a power of two. -/
theorem natCast_bounds {n : ℕ} {k : ℕ} (hpos : 0 < n) (h : n ≤ 2 ^ k) : 2 ^ (0 : ℤ) ≤ (n : ℚ) ∧ (n : ℚ) ≤ 2 ^ (k : ℤ) := by
  rw [zpow_zero, zpow_natCast]
  exact ⟨by exact_mod_cast hpos, by exact_mod_cast h⟩

/-! ## Whole numbers -/

/-- A shift to the left multiplies by a power of two. -/
theorem cast_shiftLeft (n k : ℕ) : ((n <<< k : ℕ) : ℚ) = n * 2 ^ (k : ℤ) := by
  rw [Nat.shiftLeft_eq, zpow_natCast]
  push_cast
  rfl

/-- A size that a word holds. -/
theorem nears_toFloat (n : UInt64) (hn : 0 < n.toNat) : Nears n.toFloat n.toNat := by
  have hcompare : compare (n.toNat : ℤ) 0 = .gt := Int.compare_eq_gt.mpr (by omega)
  have hbound : n.toNat < 2 ^ 100 := n.toNat_lt.trans (by norm_num)
  have hfloat : n.toFloat = .ofModel (pack (UnpackedFloat.round Format.binary64 .positive n.toNat 0)) := by
    unfold UInt64.toFloat Float.Model.ofUInt64 UnpackedFloat.ofUInt64 UnpackedFloat.ofNat UnpackedFloat.ofInt
      UnpackedFloat.normalize
    rw [hcompare]
    rfl
  have hshift : (0 - Format.binary64.targetExponent (totalExponent n.toNat 0)).toNat = 52 - n.toNat.log2 := by
    rw [targetExponent_totalExponent]
    omega
  rw [hfloat, UnpackedFloat.round, decreaseExponent, hshift]
  refine nears_of_round ((moderate_natCast hn hbound).mono (by norm_num)) ?_ (tells_exact ?_) ?_
  · exact Nat.shiftLeft_pos_iff.mpr hn
  · rw [cast_shiftLeft, mul_assoc, ← zpow_add₀ two_ne_zero, zero_sub, add_neg_cancel, zpow_zero, mul_one]
  · rw [exponentOf_natCast]
    omega

/-- A product of positive numbers is rounded from the product of their mantissas. -/
theorem mul_finite {number number' : Float} {a b : ℕ × ℤ} {ha : 0 < a.1} {hb : 0 < b.1}
    (h : number.toModel.unpack = .finite .positive a.1 a.2 ha) (h' : number'.toModel.unpack = .finite .positive b.1 b.2 hb) :
    number * number' = .ofModel (pack (roundWithAccuracy Format.binary64 .positive (a.1 * b.1) (a.2 + b.2) .exact)) := by
  change Float.ofModel (pack (UnpackedFloat.mul _ _ _)) = _
  rw [h, h']
  rfl

/-- The zeroth power of ten, as it is tabulated. -/
theorem nears_powerOfTen : Nears (Float.ofBits 0x3FF0000000000000) 1 := by
  unfold Nears
  rw [rounded_one]
  exact ⟨by norm_num, rfl⟩

/-- A small whole number is converted as a word. -/
theorem ofNat_of_lt {n : ℕ} (h : n < 2 ^ 53) : Float.ofNat n = n.toUInt64.toFloat * Float.ofBits 0x3FF0000000000000 := by
  change Float.ofScientific n false 0 = _
  unfold Float.ofScientific
  rw [dif_pos ⟨h, Nat.zero_le 22⟩]
  rfl

/-- A large whole number is rounded. -/
theorem ofNat_of_le {n : ℕ} (hn : 0 < n) (h : 2 ^ 53 ≤ n) :
    Float.ofNat n = .ofModel (pack (roundWithAccuracy Format.binary64 .positive (n <<< 53) (-53) .exact)) := by
  change Float.ofScientific n false 0 = _
  unfold Float.ofScientific
  rw [dif_neg fun hsmall => absurd hsmall.1 (Nat.not_lt.mpr h)]
  change Float.ofModel (Float.Model.pack (UnpackedFloat.ofScientific Format.binary64 n 0)) = _
  unfold UnpackedFloat.ofScientific
  have hrange : (2 : ℤ) ^ Format.binary64.exponentBits = 2048 := by norm_num
  rw [dif_neg hn.ne', if_neg (by norm_num), if_neg (by omega), if_pos le_rfl]
  change Float.ofModel (pack (roundWithAccuracy Format.binary64 .positive (n <<< 53 * 1) (-53) .exact)) = _
  rw [Nat.mul_one]

/-- A product is the number nearest to the product of what is multiplied. -/
theorem nears_mul {number number' : Float} {x y : ℚ} (h : Nears number x) (h' : Nears number' y) (hx : Moderate 400 x)
    (hy : Moderate 400 y) : Nears (number * number') (worth (rounded x) * worth (rounded y)) := by
  obtain ⟨hpos, hunpack⟩ := h
  obtain ⟨hpos', hunpack'⟩ := h'
  obtain ⟨hlow, hhigh⟩ := rounded_bounds hx.pos
  obtain ⟨hlow', hhigh'⟩ := rounded_bounds hy.pos
  have hrange : -900 ≤ (rounded x).2 + (rounded y).2 + 52 ∧ (rounded x).2 + (rounded y).2 + 53 ≤ 900 := by
    have hx' := hx.low
    have hx'' := hx.high
    have hy' := hy.low
    have hy'' := hy.high
    have hexp := rounded_exponent_bounds x
    have hexp' := rounded_exponent_bounds y
    omega
  generalize rounded x = a at *
  generalize rounded y = b at *
  have hproduct : 0 < a.1 * b.1 := Nat.mul_pos hpos hpos'
  have hlog : 104 ≤ (a.1 * b.1).log2 :=
    (Nat.le_log2 hproduct.ne').mpr ((show 2 ^ 104 = 2 ^ 52 * 2 ^ 52 by norm_num) ▸ Nat.mul_le_mul hlow hlow')
  have hlog' : (a.1 * b.1).log2 < 106 :=
    (Nat.log2_lt hproduct.ne').mpr ((show 2 ^ 106 = 2 ^ 53 * 2 ^ 53 by norm_num) ▸ Nat.mul_lt_mul'' hhigh hhigh')
  have htells : Tells .exact (worth a * worth b / 2 ^ (a.2 + b.2) - (a.1 * b.1 : ℕ)) := by
    refine tells_exact ?_
    rw [zpow_add₀ (two_ne_zero : (2 : ℚ) ≠ 0), worth, worth]
    push_cast
    ring
  have hexp := exponentOf_eq hproduct htells
  rw [mul_finite hunpack hunpack']
  refine nears_of_round ⟨mul_pos (worth_pos hlow) (worth_pos hlow'), ?_, ?_⟩ hproduct htells ?_
  · omega
  · omega
  · omega

/-- A whole number becomes the number nearest to it. -/
theorem nears_natCast {n : ℕ} (hn : 0 < n) (hmoderate : Moderate 400 n) : Nears (.ofNat n) n := by
  rcases Nat.lt_or_ge n (2 ^ 53) with hsmall | hlarge
  · -- A small one is multiplied by one.
    have hword : n.toUInt64.toNat = n := Nat.mod_eq_of_lt (hsmall.trans (by norm_num))
    have hfloat := nears_toFloat n.toUInt64 (by rwa [hword])
    rw [hword] at hfloat
    have hone : worth (rounded 1) = 1 := by
      rw [rounded_one, worth]
      norm_num
    have hproduct := nears_mul hfloat nears_powerOfTen hmoderate
      (Nat.cast_one (R := ℚ) ▸ (moderate_natCast one_pos (by norm_num)).mono (by norm_num))
    obtain ⟨hlow, hhigh⟩ := rounded_bounds hmoderate.pos
    rw [hone, mul_one] at hproduct
    rw [ofNat_of_lt hsmall]
    exact hproduct.congr (rounded_worth hlow hhigh)
  · rw [ofNat_of_le hn hlarge]
    refine nears_of_round (hmoderate.mono (by norm_num)) (Nat.shiftLeft_pos_iff.mpr hn) (tells_exact ?_) ?_
    · rw [cast_shiftLeft, mul_assoc, ← zpow_add₀ two_ne_zero]
      norm_num
    · rw [exponentOf_natCast]
      omega

/-- A size is the number nearest to it. -/
theorem nears_ofNat {n : ℕ} (hn : 0 < n) (hbound : n < 2 ^ 100) : Nears (.ofNat n) n :=
  nears_natCast hn ((moderate_natCast hn hbound).mono (by norm_num))

/-! ## Division -/

/-- What the model makes of a remainder says where the quotient lies. -/
theorem tells_accuracyOfFraction {num den : ℕ} (hden : 0 < den) :
    Tells (accuracyOfFraction (num % den) den) ((num : ℚ) / den - (num / den : ℕ)) := by
  have hden' : (0 : ℚ) < den := Nat.cast_pos.mpr hden
  have hrest : (num : ℚ) / den - (num / den : ℕ) = (num % den : ℕ) / den := by
    have hsplit : (num : ℚ) = den * (num / den : ℕ) + (num % den : ℕ) := by exact_mod_cast (Nat.div_add_mod num den).symm
    rw [div_sub' hden'.ne']
    congr 1
    linarith
  rw [hrest]
  unfold accuracyOfFraction
  split_ifs with hzero
  · rw [hzero, Nat.cast_zero, zero_div]
    rfl
  · have hpos : (0 : ℚ) < (num % den : ℕ) := Nat.cast_pos.mpr (Nat.pos_of_ne_zero hzero)
    have hlt : ((num % den : ℕ) : ℚ) < den := Nat.cast_lt.mpr (Nat.mod_lt num hden)
    rcases hcompare : compare (2 * (num % den)) den with _ | _ | _
    · have hhalf : (2 : ℚ) * (num % den : ℕ) < den := by exact_mod_cast compare_lt_iff_lt.mp hcompare
      exact ⟨div_pos hpos hden', by rw [div_lt_iff₀ hden']; linarith⟩
    · have hhalf : (2 : ℚ) * (num % den : ℕ) = den := by exact_mod_cast compare_eq_iff_eq.mp hcompare
      change ((num % den : ℕ) : ℚ) / den = 1 / 2
      rw [div_eq_iff hden'.ne']
      linarith
    · have hhalf : (den : ℚ) < 2 * (num % den : ℕ) := by exact_mod_cast compare_gt_iff_gt.mp hcompare
      exact ⟨by rw [lt_div_iff₀ hden']; linarith, (div_lt_one hden').mpr hlt⟩

/-- A quotient of positive numbers is rounded from the quotient of their mantissas, taken to 53 digits more. -/
theorem div_finite {number number' : Float} {a b : ℕ × ℤ} {ha : 0 < a.1} {hb : 0 < b.1}
    (h : number.toModel.unpack = .finite .positive a.1 a.2 ha) (h' : number'.toModel.unpack = .finite .positive b.1 b.2 hb)
    (hdigits : a.1.log2 = b.1.log2) (hrange : -1000 ≤ a.2 - b.2) {num : ℕ} (hnum : num = a.1 <<< 53) :
    number / number' = .ofModel (pack (roundWithAccuracy Format.binary64 .positive (num / b.1) (a.2 - b.2 - 53)
      (accuracyOfFraction (num % b.1) b.1))) := by
  have hmin : Format.binary64.minExponent = -1074 := by decide
  have hbits : (Format.binary64.mantissaBits : ℤ) = 53 := by decide
  have htarget : min (a.2 - b.2) (Format.binary64.targetExponent (totalExponent a.1 a.2 - totalExponent b.1 b.2)) =
      a.2 - b.2 - 53 := by
    rw [Format.targetExponent, hmin, hbits, totalExponent, totalExponent, hdigits]
    omega
  have hshift : (a.2 - b.2 - (a.2 - b.2 - 53)).toNat = 53 := by omega
  change Float.ofModel (pack (UnpackedFloat.div _ _ _)) = _
  rw [h, h']
  simp only [UnpackedFloat.div, divCore]
  rw [htarget, hshift, hnum]
  rfl

/-- The quotient of two mantissas of 53 digits, taken to 53 digits more, has 53 or 54 digits. -/
theorem quotient_log2 {num m n : ℕ} (hnum : num = m <<< 53) (hm : 2 ^ 52 ≤ m) (hm' : m < 2 ^ 53) (hn : 2 ^ 52 ≤ n)
    (hn' : n < 2 ^ 53) : 0 < num / n ∧ 52 ≤ (num / n).log2 ∧ (num / n).log2 ≤ 53 := by
  have hpos : 0 < n := (Nat.two_pow_pos 52).trans_le hn
  have hlow : 2 ^ 52 ≤ num / n := by
    rw [Nat.le_div_iff_mul_le hpos, hnum, Nat.shiftLeft_eq]
    calc 2 ^ 52 * n ≤ 2 ^ 52 * 2 ^ 53 := Nat.mul_le_mul_left _ hn'.le
      _ ≤ m * 2 ^ 53 := Nat.mul_le_mul_right _ hm
  have hhigh : num / n < 2 ^ 54 := by
    rw [Nat.div_lt_iff_lt_mul hpos, hnum, Nat.shiftLeft_eq]
    calc m * 2 ^ 53 < 2 ^ 53 * 2 ^ 53 := Nat.mul_lt_mul_of_pos_right hm' (Nat.two_pow_pos 53)
      _ = 2 ^ 54 * 2 ^ 52 := by norm_num
      _ ≤ 2 ^ 54 * n := Nat.mul_le_mul_left _ hn
  have hquotient : 0 < num / n := (Nat.two_pow_pos 52).trans_le hlow
  exact ⟨hquotient, (Nat.le_log2 hquotient.ne').mpr hlow, Nat.le_of_lt_succ ((Nat.log2_lt hquotient.ne').mpr hhigh)⟩

/-- A quotient is the number nearest to the quotient of what is divided. -/
theorem nears_div {number number' : Float} {x y : ℚ} (h : Nears number x) (h' : Nears number' y) (hx : Moderate 400 x)
    (hy : Moderate 400 y) : Nears (number / number') (worth (rounded x) / worth (rounded y)) := by
  obtain ⟨hpos, hunpack⟩ := h
  obtain ⟨hpos', hunpack'⟩ := h'
  obtain ⟨hlow, hhigh⟩ := rounded_bounds hx.pos
  obtain ⟨hlow', hhigh'⟩ := rounded_bounds hy.pos
  have hrange : -802 ≤ (rounded x).2 - (rounded y).2 ∧ (rounded x).2 - (rounded y).2 ≤ 802 := by
    have hx' := hx.low
    have hx'' := hx.high
    have hy' := hy.low
    have hy'' := hy.high
    have hexp := rounded_exponent_bounds x
    have hexp' := rounded_exponent_bounds y
    omega
  generalize rounded x = a at *
  generalize rounded y = b at *
  obtain ⟨num, hnum⟩ : ∃ num, num = a.1 <<< 53 := ⟨_, rfl⟩
  obtain ⟨hquotient, hlog, hlog'⟩ := quotient_log2 hnum hlow hhigh hlow' hhigh'
  have hscaled : worth a / worth b / 2 ^ (a.2 - b.2 - 53) = (num : ℚ) / b.1 := by
    have hb : (b.1 : ℚ) ≠ 0 := Nat.cast_ne_zero.mpr hpos'.ne'
    rw [hnum, cast_shiftLeft, worth, worth, zpow_sub₀ two_ne_zero, zpow_sub₀ two_ne_zero]
    field_simp
    exact (zpow_natCast 2 53).symm
  have htells : Tells (accuracyOfFraction (num % b.1) b.1) (worth a / worth b / 2 ^ (a.2 - b.2 - 53) - (num / b.1 : ℕ)) := by
    rw [hscaled]
    exact tells_accuracyOfFraction hpos'
  have hexp := exponentOf_eq hquotient htells
  rw [div_finite hunpack hunpack' (by rw [log2_eq_of_bounds hlow hhigh, log2_eq_of_bounds hlow' hhigh']) (by omega) hnum]
  refine nears_of_round ⟨div_pos (worth_pos hlow) (worth_pos hlow'), ?_, ?_⟩ hquotient htells ?_
  · omega
  · omega
  · omega

/-! ## Parts of a size -/

variable {size size' whole : ℕ}

/-- What the quotient of two sizes is nearest to. -/
def share (size whole : ℕ) : ℚ := worth (rounded size) / worth (rounded whole)

/-- The float for a share is near to it. -/
theorem nears_share (hsize : 0 < size) (hbound : size < 2 ^ 100) (hwhole : 0 < whole) (hbound' : whole < 2 ^ 100) :
    Nears (.ofNat size / .ofNat whole) (share size whole) :=
  nears_div (nears_ofNat hsize hbound) (nears_ofNat hwhole hbound') ((moderate_natCast hsize hbound).mono (by norm_num))
    ((moderate_natCast hwhole hbound').mono (by norm_num))

/-- A share of something is positive. -/
theorem share_pos (hsize : 0 < size) (hwhole : 0 < whole) : 0 < share size whole :=
  div_pos (worth_pos (rounded_bounds (Nat.cast_pos.mpr hsize)).1) (worth_pos (rounded_bounds (Nat.cast_pos.mpr hwhole)).1)

/-- The greater number is rounded to no less. -/
theorem worth_rounded_mono (hsize : 0 < size) (h : size ≤ size') : worth (rounded size) ≤ worth (rounded size') := by
  have hpos : (0 : ℚ) < size := Nat.cast_pos.mpr hsize
  have hle : (size : ℚ) ≤ size' := Nat.cast_le.mpr h
  exact worth_mono (rounded_bounds hpos).2 (rounded_bounds (hpos.trans_le hle)).1 (rounded_mono hpos hle)

/-- The share of the greater size is no less. -/
theorem share_mono (hsize : 0 < size) (h : size ≤ size') (hwhole : 0 < whole) : share size whole ≤ share size' whole :=
  div_le_div_of_nonneg_right (worth_rounded_mono hsize h) (worth_pos (rounded_bounds (Nat.cast_pos.mpr hwhole)).1).le

/-- The share of what fills the whole is at least one. -/
theorem one_le_share (hwhole : 0 < whole) (h : whole ≤ size) : 1 ≤ share size whole := by
  rw [share, one_le_div (worth_pos (rounded_bounds (Nat.cast_pos.mpr hwhole)).1)]
  exact worth_rounded_mono hwhole h

/-- Nothing is nothing in parts. -/
theorem unpack_zero_div {number number' : Float} {x : ℚ} (h : number.toModel.unpack = .zero .positive)
    (h' : Nears number' x) : (number / number').toModel.unpack = .zero .positive := by
  obtain ⟨hpos, hunpack⟩ := h'
  change (pack (UnpackedFloat.div _ number.toModel.unpack number'.toModel.unpack)).unpack = _
  rw [hunpack, h]
  exact (rfl : (pack (.zero .positive)).unpack = .zero .positive)

/-- No bytes make the float for zero. -/
theorem unpack_ofNat_zero : (Float.ofNat 0).toModel.unpack = .zero .positive := rfl

/-- What lies below nothing lies below every positive number. -/
theorem lt_of_lt_zero {bound number : Float} {x : ℚ} (h : Nears number x) (hwhole : 0 < whole) (hwhole' : whole < 2 ^ 100)
    (hlt : bound < .ofNat 0 / .ofNat whole) : bound < number := by
  obtain ⟨hpos, hunpack⟩ := h
  rw [lt_iff, unpack_zero_div unpack_ofNat_zero (nears_ofNat hwhole hwhole')] at hlt
  rw [lt_iff, hunpack]
  match bound.toModel.unpack, hlt with
  | .infinity .negative, _ | .finite .negative .., _ => rfl

/-- A bound that a part of a size exceeds is exceeded by all larger parts. -/
theorem lt_quotient_of_le {bound : Float} (h : size ≤ size') (hsize : size' < 2 ^ 100) (hwhole : 0 < whole)
    (hbound : whole < 2 ^ 100) (hlt : bound < .ofNat size / .ofNat whole) : bound < .ofNat size' / .ofNat whole := by
  rcases Nat.eq_zero_or_pos size with rfl | hpos
  · rcases Nat.eq_zero_or_pos size' with rfl | hpos'
    · exact hlt
    · exact lt_of_lt_zero (nears_share hpos' hsize hwhole hbound) hwhole hbound hlt
  · exact (nears_share hpos (h.trans_lt hsize) hwhole hbound).lt_of_le (nears_share (hpos.trans_le h) hsize hwhole hbound)
      (share_pos hpos hwhole) (share_mono hpos h hwhole) hlt

/-- Where a size reaches another, its part of it reaches every bound up to one. -/
theorem le_quotient_of_le {bound : Float} (hone : bound ≤ 1.0) (h : whole ≤ size) (hsize : size < 2 ^ 100) (hwhole : 0 < whole) :
    bound ≤ .ofNat size / .ofNat whole :=
  nears_one.le_of_le (nears_share (hwhole.trans_le h) hsize hwhole (h.trans_lt hsize)) one_pos (one_le_share hwhole h) hone

end TileDepot.Binary64
