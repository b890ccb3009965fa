/-!
# Words

Sizes, counts and times are held in signed words. What becomes too large or too small for its word wraps around: the word
holds what is left of it modulo the number of words there are. A sum that stays within the word is exact.
-/

namespace TileDepot.Word

/-- Half of the words of so many bits: as many of them are below zero as are not. -/
def half (bits : Nat) : Int := Nat.pow 2 (bits - 1)

/-- A number that a signed word of so many bits holds as it is. -/
def Fits (bits : Nat) (n : Int) : Prop := -half bits ≤ n ∧ n < half bits

instance (bits : Nat) (n : Int) : Decidable (Fits bits n) := inferInstanceAs (Decidable (_ ∧ _))

/-- What a signed word of so many bits holds of a number. -/
def wrap (bits : Nat) (n : Int) : Int := (n + half bits) % (2 * half bits) - half bits

/-- A word holds what fits in it. -/
theorem wrap_of_fits {bits : Nat} {n : Int} (h : Fits bits n) : wrap bits n = n := by
  obtain ⟨hleast, hmost⟩ := h
  rw [wrap, Int.emod_eq_of_lt (by omega) (by omega), Int.add_sub_cancel]

end TileDepot.Word
