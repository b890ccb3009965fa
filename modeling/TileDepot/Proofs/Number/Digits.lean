import TileDepot.Proofs.Number.Quotients

/-!
# Counts of 53 digits

A binary64 number keeps 53 digits of a count. A count that has no more than these, but for zeros at its end, is kept as it is, and
any other one settles on the nearest that is.
-/

namespace TileDepot.Binary64

/-- A count that has 53 digits at most in front of its last zeros. -/
def FewDigits (n : ℕ) : Prop := ∃ digits places : ℕ, digits < 2 ^ 53 ∧ n = digits * 2 ^ places

/-- The count nearest to one of which 53 digits are kept, a half to the even neighbour. -/
def settled (n : ℕ) : ℕ := roundHalfEven n (2 ^ (n.log2 - 52)) * 2 ^ (n.log2 - 52)

variable {n : ℕ}

/-! ## Rounding to digits -/

/-- The nearest whole number to a fraction is its quotient, rounded half to even. -/
theorem nearest_div (n : ℕ) {den : ℕ} (hden : 0 < den) : nearest (n / den) = roundHalfEven n den := by
  have hden' : (0 : ℚ) < den := Nat.cast_pos.mpr hden
  have hrest : 2 * ((n : ℚ) / den - (n / den : ℕ)) = (2 * (n % den) : ℕ) / den := by
    have hsplit : (n : ℚ) = den * (n / den : ℕ) + (n % den : ℕ) := by exact_mod_cast (Nat.div_add_mod n den).symm
    rw [eq_div_iff hden'.ne', mul_assoc, sub_mul, div_mul_cancel₀ _ hden'.ne']
    push_cast
    linarith
  unfold nearest roundHalfEven
  simp only [Nat.floor_div_eq_div, hrest, div_lt_one hden', one_lt_div hden', Nat.cast_lt]

/-- A quotient without a rest is not rounded. -/
theorem roundHalfEven_of_dvd {den : ℕ} (hden : 0 < den) (h : den ∣ n) : roundHalfEven n den = n / den := by
  simp only [roundHalfEven, Nat.mod_eq_zero_of_dvd h]
  exact if_pos (by omega)

/-- What 53 digits stand for, with the carry or without. -/
theorem worth_rounded (x : ℚ) : worth (rounded x) = nearest (x / 2 ^ exponentOf x) * 2 ^ exponentOf x := by
  unfold rounded worth
  split_ifs with hcarry
  · rw [hcarry, zpow_add_one₀ two_ne_zero]
    push_cast
    ring
  · rfl

/-- A mantissa of 53 digits keeps them at every exponent. -/
theorem worth_rounded_mul {x : ℚ} (hx : 0 < x) (k : ℤ) : worth (rounded (worth (rounded x) * 2 ^ k)) = worth (rounded x) * 2 ^ k := by
  obtain ⟨hlow, hhigh⟩ := rounded_bounds hx
  have hworth : worth (rounded x) * 2 ^ k = worth ((rounded x).1, (rounded x).2 + k) := by
    rw [worth, worth, mul_assoc, ← zpow_add₀ two_ne_zero]
  rw [hworth, rounded_worth (a := ((rounded x).1, (rounded x).2 + k)) hlow hhigh]

/-- A count of at most `2 ^ 53` times a power of two is rounded to itself. -/
theorem worth_rounded_of_le {n : ℕ} (k : ℤ) (hpos : 0 < n) (h : n ≤ 2 ^ 53) : worth (rounded (n * 2 ^ k)) = n * 2 ^ k := by
  rcases Nat.lt_or_ge n (2 ^ 53) with hlt | hge
  · have hlog : n.log2 ≤ 52 := Nat.le_of_lt_succ ((Nat.log2_lt hpos.ne').mpr hlt)
    have hlow := Nat.log2_self_le hpos.ne'
    have hhigh := Nat.lt_log2_self (n := n)
    have hsplit : ∀ m, 2 ^ (n.log2 + m) * 2 ^ (52 - n.log2) = 2 ^ (52 + m) := fun m => by
      rw [← pow_add]
      congr 1
      omega
    have hpair : worth (n * 2 ^ (52 - n.log2), k - (52 - n.log2 : ℕ)) = n * 2 ^ k := by
      rw [worth, Nat.cast_mul, Nat.cast_pow, Nat.cast_ofNat, ← zpow_natCast, mul_assoc, ← zpow_add₀ two_ne_zero, add_sub_cancel]
    rw [← hpair, rounded_worth]
    · exact (hsplit 0).symm.le.trans (Nat.mul_le_mul_right _ hlow)
    · exact (Nat.mul_lt_mul_of_pos_right hhigh (Nat.two_pow_pos _)).trans_le (hsplit 1).le
  · obtain rfl := Nat.le_antisymm h hge
    rw [Nat.cast_pow, Nat.cast_ofNat, ← zpow_natCast, ← zpow_add₀ two_ne_zero, worth_rounded_two_zpow]

/-! ## Counts that settle -/

/-- A number of up to 53 digits is settled as it is. -/
theorem settled_of_lt (h : n < 2 ^ 53) : settled n = n := by
  have hlog : n.log2 - 52 = 0 := by
    rcases Nat.eq_zero_or_pos n with rfl | hpos
    · rfl
    · have hlt := (Nat.log2_lt hpos.ne').mpr h
      omega
  rw [settled, hlog, pow_zero, roundHalfEven_of_dvd one_pos (one_dvd n), Nat.div_one, mul_one]

/-- The count that another settles on is the one that the number nearest to that one stands for. -/
theorem cast_settled (hn : 0 < n) : (settled n : ℚ) = worth (rounded n) := by
  rcases Nat.lt_or_ge n (2 ^ 53) with hsmall | hlarge
  · have hcount := worth_rounded_of_le 0 hn hsmall.le
    rw [zpow_zero, mul_one] at hcount
    rw [settled_of_lt hsmall, hcount]
  · have hlog : 53 ≤ n.log2 := (Nat.le_log2 hn.ne').mpr hlarge
    have hexponent : exponentOf n = (n.log2 - 52 : ℕ) := by
      rw [exponentOf_natCast]
      omega
    have hpower : ((2 ^ (n.log2 - 52) : ℕ) : ℚ) = 2 ^ exponentOf n := by
      rw [hexponent, zpow_natCast]
      push_cast
      rfl
    rw [worth_rounded, ← hpower, nearest_div n (Nat.two_pow_pos _), ← Nat.cast_mul]
    rfl

/-- A count does not settle above a power of two that it does not exceed. -/
theorem settled_le {k : ℕ} (hn : 0 < n) (h : n ≤ 2 ^ k) : settled n ≤ 2 ^ k := by
  obtain ⟨hlow, hhigh⟩ := natCast_bounds hn h
  have hbound := (worth_rounded_bounds hlow hhigh).2
  rw [← cast_settled hn, zpow_natCast] at hbound
  exact_mod_cast hbound

/-- A rounded quotient exceeds no whole bound of the quotient. -/
theorem roundHalfEven_le (n : ℕ) {den bound : ℕ} (hden : 0 < den) (h : n ≤ bound * den) : roundHalfEven n den ≤ bound := by
  rcases h.lt_or_eq with hlt | rfl
  · have hwhole : n / den < bound := (Nat.div_lt_iff_lt_mul hden).mpr hlt
    unfold roundHalfEven
    dsimp only
    split_ifs <;> omega
  · rw [roundHalfEven_of_dvd hden (Nat.dvd_mul_left den bound), Nat.mul_div_cancel _ hden]

/-! ## Counts of few digits -/

/-- A number up to `2 ^ 53` has few digits. -/
theorem fewDigits_of_le (h : n ≤ 2 ^ 53) : FewDigits n := by
  rcases h.lt_or_eq with hlt | rfl
  · exact ⟨n, 0, hlt, (Nat.mul_one n).symm⟩
  · exact ⟨1, 53, by norm_num, (Nat.one_mul _).symm⟩

/-- Zeros at the end add no digits. -/
theorem FewDigits.mul_two_pow (h : FewDigits n) (k : ℕ) : FewDigits (n * 2 ^ k) := by
  obtain ⟨digits, places, hdigits, rfl⟩ := h
  exact ⟨digits, places + k, hdigits, by rw [pow_add, mul_assoc]⟩

/-- What a number is settled as has few digits. -/
theorem fewDigits_settled (n : ℕ) : FewDigits (settled n) := by
  refine (fewDigits_of_le (roundHalfEven_le n (Nat.two_pow_pos _) ?_)).mul_two_pow _
  calc n ≤ 2 ^ (n.log2 + 1) := Nat.lt_log2_self.le
    _ ≤ 2 ^ (53 + (n.log2 - 52)) := Nat.pow_le_pow_right two_pos (by omega)
    _ = 2 ^ 53 * 2 ^ (n.log2 - 52) := pow_add 2 53 _

/-- A number of few digits is settled as it is. -/
theorem settled_of_fewDigits (h : FewDigits n) : settled n = n := by
  obtain ⟨digits, places, hdigits, rfl⟩ := h
  rcases Nat.eq_zero_or_pos digits with rfl | hpos
  · rw [zero_mul]
    rfl
  · have hlog : (digits * 2 ^ places).log2 - 52 ≤ places := by
      have hlt : (digits * 2 ^ places).log2 < 53 + places := by
        rw [Nat.log2_lt (Nat.mul_pos hpos (Nat.two_pow_pos places)).ne', pow_add]
        exact Nat.mul_lt_mul_of_pos_right hdigits (Nat.two_pow_pos places)
      omega
    have hdvd : 2 ^ ((digits * 2 ^ places).log2 - 52) ∣ digits * 2 ^ places := (pow_dvd_pow 2 hlog).mul_left digits
    rw [settled, roundHalfEven_of_dvd (Nat.two_pow_pos _) hdvd, Nat.div_mul_cancel hdvd]

/-- The counts that have few digits are those that settle where they are. -/
theorem settled_eq_self_iff : settled n = n ↔ FewDigits n :=
  ⟨fun h => h ▸ fewDigits_settled n, settled_of_fewDigits⟩

end TileDepot.Binary64
