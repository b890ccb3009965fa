import TileDepot.Proofs.Json.Documents
import TileDepot.Proofs.Number.Finite

/-!
# Numbers read back

Whatever a number is read from, it is finite. What is read from the text of a number is a number again, if it is read at all.
-/

namespace TileDepot.Json

open Binary64

namespace Literal

/-- The digits that are gathered fit in a word. -/
theorem gather_le {word : Nat} (h : word ≤ maxUInt64) (digits : List Char) : (gather word digits).1 ≤ maxUInt64 := by
  induction digits generalizing word with
  | nil => exact h
  | cons c digits ih =>
    unfold gather
    dsimp only
    split
    · rename_i hnext
      exact ih hnext
    · exact h

/-- A finite number is scaled to a finite one, or to none. -/
theorem isFinite_scale {fuel : Nat} {x y : Float} {exponent : Int} (hx : x.isFinite = true)
    (h : scale fuel x exponent = some y) : y.isFinite = true := by
  have hquotient : ∀ {x : Float}, x.isFinite = true → ∀ n ≤ 308, (x / Float.ofScientific 1 false n).isFinite = true :=
    fun hx _ hn => isFinite_div_of_one_le hx (one_le_magnitude_powerOfTen hn).2
  induction fuel generalizing x exponent with
  | zero =>
    obtain rfl := Option.some.inj h
    exact hx
  | succ fuel ih =>
    unfold scale at h
    split at h
    · rename_i hsmall
      dsimp only at h
      split at h
      · obtain rfl := Option.some.inj h
        exact hquotient hx _ hsmall
      · split at h
        · cases h
        · rename_i hinfinite
          obtain rfl := Option.some.inj h
          exact isFinite_mul hx (one_le_magnitude_powerOfTen hsmall).1 (Bool.eq_false_iff.mpr hinfinite)
    · split at h
      · obtain rfl := Option.some.inj h
        exact hx
      · split at h
        · cases h
        · exact ih (hquotient hx 308 (Nat.le_refl 308)) h

/-- A number that is read is finite. -/
theorem isFinite_toFloat? {l : Literal} {x : Float} (h : l.toFloat? = some x) : x.isFinite = true := by
  have hword : ∀ digits, (gather 0 digits).1 ≤ maxUInt64 := gather_le (Nat.zero_le _)
  unfold toFloat? at h
  split at h
  rename_i word extra hwhole
  split at h
  rename_i word' places hparts
  have hword' : word' ≤ maxUInt64 := by
    have hfirst := hword l.whole
    rw [hwhole] at hfirst
    split at hparts
    · obtain ⟨rfl, -⟩ := Prod.mk.inj hparts
      exact hfirst
    · rename_i fraction _
      obtain ⟨rfl, -⟩ := Prod.mk.inj hparts
      exact gather_le hfirst fraction
  split at h
  dsimp only at h
  split at h
  · split at h
    · cases h
    · obtain rfl := Option.some.inj h
      exact isFinite_withSign _ rfl
  · obtain ⟨magnitude, hscale, hx⟩ := Option.bind_eq_some_iff.mp h
    obtain rfl := Option.some.inj hx
    exact isFinite_withSign _ (isFinite_scale (isFinite_ofNat (hword'.trans_lt (by decide))) hscale)

/-- A whole number that is read is not too large. -/
theorem natAbs_toInt? {l : Literal} {n : Int} (h : l.toInt? = some n) : n.natAbs < 2 ^ 100 := by
  have hlarge : (maxUInt64 : Int) < 2 ^ 100 := by decide
  have hlarge' : (Nat.pow 2 63 : Int) < 2 ^ 100 := by decide
  unfold toInt? at h
  dsimp only at h
  split at h
  · cases h
  · split at h
    · split at h
      · cases h
      · obtain rfl := Option.some.inj h
        omega
    · split at h
      · obtain rfl := Option.some.inj h
        omega
      · cases h

end Literal

/-- A number that is read is finite. -/
theorem isFinite_float? {value : Json} {x : Float} (h : value.float? = some x) : x.isFinite = true := by
  unfold float? at h
  split at h
  · split at h
    · rename_i hint
      obtain rfl := Option.some.inj h
      exact isFinite_ofInt (Literal.natAbs_toInt? hint)
    · exact Literal.isFinite_toFloat? h
  · cases h

/-- The number that the text of a number is read as. -/
def reread? (x : Float) : Option Float := (read? (floatText x)).bind float?

/-- The text of a number stands for a number literal, or for nothing. -/
theorem means_float (x : Float) : ∃ value, (Doc.float x).Means value := by
  cases hx : ofFloat x with
  | nan => exact ⟨.null, by rw [Doc.float, floatText, hx]; exact .null⟩
  | infinite negative => exact ⟨.null, by rw [Doc.float, floatText, hx]; exact .null⟩
  | finite negative mantissa exponent =>
    obtain ⟨l, hproper, hchars⟩ := Literal.exists_of_finite hx
    exact ⟨.number l, .number hproper hchars⟩

/-- A number is restored as its text is read. -/
theorem restores_float {x y : Float} (h : reread? x = some y) : (Doc.float x).Restores float? y := by
  obtain ⟨value, hmeans⟩ := means_float x
  have hread := hmeans.read?
  rw [Doc.float, Doc.pretty] at hread
  rw [reread?, hread] at h
  exact ⟨value, hmeans, h⟩

end TileDepot.Json
