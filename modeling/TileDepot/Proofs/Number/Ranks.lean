import TileDepot.Proofs.Amounts

/-!
# The total order of numbers

In the total order every pattern of bits has a place of its own, not-a-numbers included. For a number of either sign the place
is made of its exponent and its digits as one whole number, so that of two numbers the smaller one has the lower place.
-/

namespace TileDepot.Binary64

open Float.Model Float.Model.UnpackedFloat

/-- The place of a pattern of bits in the total order. -/
def place (bits : UInt64) : Int :=
  let bits := bits.toNat
  if bits / Nat.pow 2 63 = 1 then Nat.pow 2 63 - 1 - (bits : Int) else bits

/-- The rank of a float is the place of its bits. -/
theorem rank_eq_place (x : Float) : rank x = place x.toBits := rfl

/-- The places of the patterns without a sign are from zero on, those of the others from minus one down. -/
theorem place_eq (bits : UInt64) :
    place bits = if bits.toNat < 2 ^ 63 then (bits.toNat : Int) else -1 - (bits.toNat - 2 ^ 63 : Int) := by
  have hbits : bits.toNat < 2 ^ 64 := bits.toNat_lt
  have hsign : bits.toNat / Nat.pow 2 63 = 1 ↔ ¬bits.toNat < 2 ^ 63 := by
    rw [show Nat.pow 2 63 = 2 ^ 63 from rfl]
    omega
  unfold place
  dsimp only
  simp only [hsign, ite_not]
  split
  · rfl
  · rw [show ((Nat.pow 2 63 : Nat) : Int) = 2 ^ 63 from rfl]
    omega

/-- No two patterns of bits have the same place. -/
theorem place_inj {bits bits' : UInt64} (h : place bits = place bits') : bits = bits' := by
  rw [place_eq, place_eq] at h
  refine UInt64.toNat_inj.mp ?_
  split at h <;> split at h <;> omega

/-- The places above zero are those of the patterns without a sign, but for that of zero. -/
theorem place_pos_iff {bits : UInt64} : 0 < place bits ↔ 0 < bits.toNat ∧ bits.toNat < 2 ^ 63 := by
  rw [place_eq]
  split <;> omega

/-! ## Numbers -/

/-- The place of a number of a sign, where that of the number without its sign is given. -/
def signed (sign : Sign) (place : Int) : Int :=
  match sign with
  | .positive => place
  | .negative => -1 - place

/-- Where an unpacked number is in the total order. -/
def Stands (place : Int) : UnpackedFloat → Prop
  | .notANumber => True
  | .infinity sign => place = signed sign (2047 * 2 ^ 52)
  | .zero sign => place = signed sign 0
  | .finite sign mantissa exponent _ => place = signed sign (mantissa + (exponent + 1074) * 2 ^ 52) ∧
    mantissa < 2 ^ 53 ∧ -1074 ≤ exponent ∧ exponent ≤ 971 ∧ (exponent = -1074 ∨ 2 ^ 52 ≤ mantissa)

/-- The sign bit turns places around. -/
theorem signed_ofBitVec (bit : BitVec 1) (place : Int) :
    signed (Sign.ofBitVec bit) place = if bit.toNat = 1 then -1 - place else place := by
  obtain rfl | rfl : bit = 0#1 ∨ bit = 1#1 := by
    revert bit
    decide
  · rfl
  · rfl

/-- A place in terms of the sign, the exponent and the digits that make up the bits. -/
theorem rank_eq_signed (x : Float) : rank x = signed (Sign.ofBitVec (@unpackSign Format.binary64 x.toBits.toBitVec))
    ((@unpackExponent Format.binary64 x.toBits.toBitVec).toNat * 2 ^ 52 +
      (@unpackMantissa Format.binary64 x.toBits.toBitVec).toNat) := by
  have hbits : x.toBits.toNat < 2 ^ 64 := x.toBits.toNat_lt
  have hmantissa := toNat_unpackMantissa x.toBits.toBitVec
  have hexponent := toNat_unpackExponent x.toBits.toBitVec
  have hsign := toNat_unpackSign x.toBits.toBitVec
  change _ = x.toBits.toNat % 2 ^ 52 at hmantissa
  change _ = x.toBits.toNat / 2 ^ 52 % 2 ^ 11 at hexponent
  change _ = x.toBits.toNat / 2 ^ 63 at hsign
  rw [rank_eq_place, place_eq, signed_ofBitVec, hmantissa, hexponent, hsign]
  split <;> split <;> omega

/-- Every float stands in the total order at its rank. -/
theorem stands_rank (x : Float) : Stands (rank x) x.toModel.unpack := by
  have hmantissa : (@unpackMantissa Format.binary64 x.toBits.toBitVec).toNat < 2 ^ 52 := BitVec.isLt _
  have hexponent : (@unpackExponent Format.binary64 x.toBits.toBitVec).toNat < 2 ^ 11 := BitVec.isLt _
  have hplaces : ((Format.binary64.mantissaBitsWithoutImplicit : Nat) : Int) = 52 := rfl
  rw [rank_eq_signed]
  change Stands _ (UnpackedFloat.unpack Format.binary64 x.toBits.toBitVec)
  unfold UnpackedFloat.unpack
  dsimp only
  rw [exponentBias_binary64]
  split
  · rename_i hall
    split
    · rename_i hzero
      rw [hall, hzero]
      rfl
    · trivial
  · rename_i hall
    have hbelow : (@unpackExponent Format.binary64 x.toBits.toBitVec).toNat ≠ 2047 := fun heq => hall (BitVec.eq_of_toNat_eq heq)
    split
    · rename_i hnone
      split
      · rename_i hzero
        rw [hnone, hzero]
        rfl
      · have hbiased : (@unpackExponent Format.binary64 x.toBits.toBitVec).toNat = 0 := by
          rw [hnone]
          rfl
        rw [Stands, hbiased, hplaces]
        refine ⟨congrArg (signed _) ?_, ?_⟩
        · push_cast
          omega
        · omega
    · rename_i hsome
      have hone : (@unpackExponent Format.binary64 x.toBits.toBitVec).toNat ≠ 0 := fun heq => hsome (BitVec.eq_of_toNat_eq heq)
      have hdigit : Nat.pow 2 52 = 4503599627370496 := rfl
      rw [Stands, toNat_one_append, hdigit, hplaces]
      refine ⟨congrArg (signed _) ?_, ?_⟩
      · push_cast
        omega
      · omega

/-- Of two numbers the smaller one has the lower place. Numbers of one sign go by their exponents first, for all digits are in use
above the smallest exponent. -/
theorem Stands.lt {a b : UnpackedFloat} {place place' : Int} (ha : Stands place a) (hb : Stands place' b)
    (h : a.compare b = some .lt) : place < place' := by
  cases a with
  | notANumber => cases h
  | infinity sign | zero sign =>
    cases b with
    | notANumber => cases sign <;> cases h
    | infinity sign' | zero sign' | finite sign' _ _ _ =>
      cases sign <;> cases sign' <;> simp only [UnpackedFloat.compare, Stands, signed] at h ha hb <;> first | omega | cases h
  | finite sign mantissa exponent hpos =>
    cases b with
    | notANumber => cases sign <;> cases h
    | infinity sign' | zero sign' =>
      cases sign <;> cases sign' <;> simp only [UnpackedFloat.compare, Stands, signed] at h ha hb <;> first | omega | cases h
    | finite sign' mantissa' exponent' hpos' =>
      obtain ⟨rfl, hdigits, hexponent, -, hfull⟩ := ha
      obtain ⟨rfl, hdigits', hexponent', -, hfull'⟩ := hb
      cases sign with
      | positive =>
        cases sign' with
        | positive =>
          have hlt := Option.some.inj h
          rw [Ordering.then_eq_lt, Int.compare_eq_lt, Int.compare_eq_eq, Nat.compare_eq_lt] at hlt
          simp only [signed]
          omega
        | negative => cases h
      | negative =>
        cases sign' with
        | positive =>
          simp only [signed]
          omega
        | negative =>
          have hgt := Option.some.inj h
          rw [Ordering.swap_eq_lt, Ordering.then_eq_gt, Int.compare_eq_gt, Int.compare_eq_eq, Nat.compare_eq_gt] at hgt
          simp only [signed]
          omega

/-- The lesser of two floats has the lower rank. -/
theorem rank_lt_of_lt {x y : Float} (h : x < y) : rank x < rank y := by
  refine (stands_rank x).lt (stands_rank y) ?_
  change decide (Float.Model.lt x.toModel y.toModel = true) = true at h
  exact beq_iff_eq.mp (decide_eq_true_iff.mp h)

end TileDepot.Binary64
