import TileDepot.Proofs.Amounts

/-!
# Sizes that come back

A size is stored as an amount of its unit, which is a binary64 number, and read back from the amount. Its unit comes back always.
Its count settles on the nearest one of 53 digits, in any unit, as all units are powers of two; so it comes back if it has no more
digits than that. Whatever was stated as an amount has no more, and neither has a count of up to `2 ^ 53` bytes.
-/

namespace TileDepot

namespace Binary64

/-- A count of bytes that its amount tells: it has few digits, or it is the largest, at which all larger ones are cut off. -/
def Tellable (bytes : ℤ) : Prop := FewDigits bytes.natAbs ∨ bytes = maxInt128

variable {bytes : ℤ} {mantissa : ℕ}

theorem tellable_clamp (h : FewDigits bytes.natAbs) : Tellable (clamp minInt128 maxInt128 bytes) := by
  unfold clamp
  split
  · exact Or.inl ⟨1, 127, by norm_num, by decide⟩
  · split
    · exact Or.inr rfl
    · exact Or.inl h

/-- What a mantissa of 53 digits is rounded to has no more digits. -/
theorem fewDigits_halfAway (h : mantissa < 2 ^ 53) (exponent : ℤ) :
    FewDigits ((2 * (fraction mantissa exponent).1 + (fraction mantissa exponent).2) / (2 * (fraction mantissa exponent).2)) := by
  have hden := fraction_den_pos mantissa exponent
  rcases le_or_gt 0 exponent with hwhole | hpart
  · have hone : (fraction mantissa exponent).2 = 1 := by
      change Nat.pow 2 (-exponent).toNat = 1
      rw [Int.toNat_of_nonpos (by omega)]
    have hmagnitude : (2 * (fraction mantissa exponent).1 + 1) / (2 * 1) = mantissa * 2 ^ exponent.toNat := by
      change (2 * (mantissa * 2 ^ exponent.toNat) + 1) / (2 * 1) = _
      omega
    rw [hone, hmagnitude]
    exact ⟨mantissa, exponent.toNat, h, rfl⟩
  · have hnum : (fraction mantissa exponent).1 = mantissa := by
      change mantissa * Nat.pow 2 exponent.toNat = mantissa
      rw [Int.toNat_of_nonpos hpart.le]
      exact mul_one mantissa
    refine fewDigits_of_le (Nat.div_le_of_le_mul ?_)
    rw [hnum]
    nlinarith

theorem tellable_finite (h : mantissa < 2 ^ 53) (negative : Bool) (exponent : ℤ) :
    Tellable ((Binary64.finite negative mantissa exponent).toInt .halfAway minInt128 maxInt128) := by
  refine tellable_clamp ?_
  have hmagnitude : (roundFraction .halfAway negative (fraction mantissa exponent).1 (fraction mantissa exponent).2).natAbs =
      (2 * (fraction mantissa exponent).1 + (fraction mantissa exponent).2) / (2 * (fraction mantissa exponent).2) := by
    cases negative with
    | true => exact Int.natAbs_neg _
    | false => rfl
  exact hmagnitude ▸ fewDigits_halfAway h exponent

/-- So has what any number is rounded to, unless it is cut off. -/
theorem tellable_halfAway (x : Float) : Tellable ((ofFloat x).toInt .halfAway minInt128 maxInt128) := by
  rw [ofFloat_eq_read]
  cases hunpack : x.toModel.unpack with
  | notANumber => exact Or.inl (fewDigits_of_le (by decide))
  | infinity sign =>
    cases sign with
    | positive => exact Or.inr rfl
    | negative => exact Or.inl ⟨1, 127, by norm_num, by decide⟩
  | zero sign => exact tellable_finite (by norm_num) _ _
  | finite sign mantissa exponent hpos => exact tellable_finite (unpack_bounds hunpack).1 _ _

theorem halfAway_mem (x : Float) : minInt128 ≤ (ofFloat x).toInt .halfAway minInt128 maxInt128 ∧
    (ofFloat x).toInt .halfAway minInt128 maxInt128 ≤ maxInt128 := by
  have hrange : minInt128 ≤ maxInt128 := by decide
  cases ofFloat x with
  | nan => decide
  | infinite negative => cases negative <;> decide
  | finite negative mantissa exponent => exact clamp_mem hrange

end Binary64

namespace ByteSize

open Binary64 Float.Model Float.Model.UnpackedFloat

theorem unit_bytes_eq (unit : ByteUnit) : unit.bytes = 2 ^ (10 * unit.power) := by
  cases unit <;> decide

/-- A whole amount below `2 ^ 53` is so many units. -/
theorem exists_of_whole {number : Float} (hwhole : (ofFloat number).isWhole = true) (habs : number.abs < 9007199254740992.0) :
    ∃ n < 2 ^ 53, ((ofFloat number).toInt .towardZero minInt128 maxInt128).natAbs = n := by
  cases hunpack : number.toModel.unpack with
  | notANumber | infinity sign =>
    rw [ofFloat_eq_read, hunpack] at hwhole
    cases hwhole
  | zero sign =>
    rw [ofFloat_eq_read, hunpack]
    refine ⟨0, by norm_num, ?_⟩
    cases sign <;> decide +kernel
  | finite sign mantissa exponent hpos =>
    have hdenotes : Denotes number sign (mantissa * 2 ^ exponent) := ⟨mantissa, exponent, hpos, hunpack, rfl⟩
    obtain ⟨n, hn, hint⟩ : ∃ n : ℕ, (mantissa * 2 ^ exponent : ℚ) = n ∧ _ = clamp minInt128 maxInt128 (sign.apply n) :=
      hdenotes.toInt_towardZero hwhole
    have hlt : n < 2 ^ 53 := by
      have hbelow := hdenotes.lt_of_abs_lt hwhole habs
      rw [hn] at hbelow
      exact_mod_cast hbelow
    obtain ⟨hlow, hhigh⟩ := mem_of_natAbs_lt ((natAbs_apply sign n).trans_lt (hlt.trans (by norm_num)))
    exact ⟨n, hlt, by rw [hint, clamp_of_mem hlow hhigh, natAbs_apply]⟩

/-- The bytes of any amount are told by their amount. -/
theorem tellable_toBytes (unit : ByteUnit) (amount : Float) :
    Tellable (unit.toBytes amount) ∧ minInt128 ≤ unit.toBytes amount ∧ unit.toBytes amount ≤ maxInt128 := by
  unfold ByteUnit.toBytes
  dsimp only
  split
  · rename_i hbranch
    obtain ⟨hwhole, habs⟩ := Bool.and_eq_true_iff.mp hbranch
    obtain ⟨n, hlt, hcount⟩ := exists_of_whole hwhole (of_decide_eq_true habs)
    have hbytes : ((ofFloat amount).toInt .towardZero minInt128 maxInt128 * unit.bytes).natAbs = n * unit.bytes := by
      rw [Int.natAbs_mul, hcount, Int.natAbs_natCast]
    refine ⟨Or.inl ?_, mem_of_natAbs_lt ?_⟩
    · rw [hbytes, unit_bytes_eq]
      exact (fewDigits_of_le hlt.le).mul_two_pow _
    · calc _ = n * unit.bytes := hbytes
        _ ≤ 2 ^ 53 * 2 ^ 50 := Nat.mul_le_mul hlt.le (unit_bytes_le unit)
        _ < 2 ^ 127 := by norm_num
  · exact ⟨tellable_halfAway _, halfAway_mem _⟩

/-- A count settles where it is, within the range, if it is told by its amount. -/
theorem clamp_settled_eq_iff {bytes : ℤ} (hlow : minInt128 ≤ bytes) (hhigh : bytes ≤ maxInt128) :
    clamp minInt128 maxInt128 (bytes.sign * settled bytes.natAbs) = bytes ↔ Tellable bytes := by
  constructor
  · intro h
    rcases eq_or_ne bytes 0 with rfl | hne
    · exact Or.inl (fewDigits_of_le (by decide))
    have hcount : (bytes.sign * settled bytes.natAbs).natAbs = settled bytes.natAbs := by
      rw [Int.natAbs_mul, Int.natAbs_sign_of_ne_zero hne, one_mul, Int.natAbs_natCast]
    have hle : settled bytes.natAbs ≤ 2 ^ 127 := settled_le (Int.natAbs_pos.mpr hne) (natAbs_le_of_mem hlow hhigh)
    have hmin : minInt128 = -2 ^ 127 := by decide
    unfold clamp at h
    split at h
    · omega
    · split at h
      · exact Or.inr h.symm
      · rw [h] at hcount
        exact Or.inl (settled_eq_self_iff.mp hcount.symm)
  · rintro (hfew | rfl)
    · rw [settled_of_fewDigits hfew, Int.sign_mul_natAbs, clamp_of_mem hlow hhigh]
    · decide +kernel

/-! ## Stored sizes -/

theorem bytes_ofAmount_amount {size : ByteSize} (hlow : minInt128 ≤ size.bytes) (hhigh : size.bytes ≤ maxInt128) :
    (ofAmount size.amount size.unit).bytes = clamp minInt128 maxInt128 (size.bytes.sign * settled size.bytes.natAbs) :=
  toBytes_amount size.unit (natAbs_le_of_mem hlow hhigh)

theorem ofAmount_amount_iff {size : ByteSize} (hlow : minInt128 ≤ size.bytes) (hhigh : size.bytes ≤ maxInt128) :
    ofAmount size.amount size.unit = size ↔ Tellable size.bytes := by
  rw [← clamp_settled_eq_iff hlow hhigh, ← bytes_ofAmount_amount hlow hhigh]
  exact ⟨congrArg ByteSize.bytes, congrArg (ByteSize.mk · size.unit)⟩

/-- A size comes back from its amount with its unit, and with the count that its own settles on. So it comes back as it was just
if the amount tells the count, and it does if the size was stated as an amount. -/
theorem stored_size_iff {size : ByteSize} (hlow : minInt128 ≤ size.bytes) (hhigh : size.bytes ≤ maxInt128) :
    (ofAmount size.amount size.unit).unit = size.unit ∧
      (ofAmount size.amount size.unit).bytes =
        clamp minInt128 maxInt128 (size.bytes.sign * settled size.bytes.natAbs) ∧
      (ofAmount size.amount size.unit = size ↔ Tellable size.bytes) ∧
      ∀ (amount : Float) (unit : ByteUnit), ofAmount (ofAmount amount unit).amount unit = ofAmount amount unit := by
  refine ⟨rfl, bytes_ofAmount_amount hlow hhigh, ofAmount_amount_iff hlow hhigh, fun amount unit => ?_⟩
  obtain ⟨htellable, hlow, hhigh⟩ := tellable_toBytes unit amount
  exact (ofAmount_amount_iff hlow hhigh).mpr htellable

/-- A count in the unit that fits it best, which has two digits in front of its last zeros. -/
theorem three_exbibytes_stored : (minInt128 ≤ (ofBytes (3 * 2 ^ 60)).bytes ∧ (ofBytes (3 * 2 ^ 60)).bytes ≤ maxInt128) ∧
    ofAmount (ofBytes (3 * 2 ^ 60)).amount (ofBytes (3 * 2 ^ 60)).unit = ofBytes (3 * 2 ^ 60) :=
  ⟨by decide, (stored_size_iff (by decide) (by decide)).2.2.1.mpr (Or.inl ⟨3, 60, by norm_num, by decide⟩)⟩

/-- The size that is never exceeded comes back with one byte more, as it has 63 digits. -/
theorem unlimited_stored : ofAmount unlimited.amount unlimited.unit = ⟨unlimited.bytes + 1, unlimited.unit⟩ ∧
    ofAmount unlimited.amount unlimited.unit ≠ unlimited := by
  decide +kernel

end ByteSize

end TileDepot
