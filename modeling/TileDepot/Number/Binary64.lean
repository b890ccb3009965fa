/-!
# Binary64 numbers read exactly

A binary64 number is decoded from its 64 bits into `± mantissa · 2 ^ exponent`. Everything that has to be exact is then
arithmetic on natural numbers and integers: rounding to a whole number in the three directions the depot uses, and the
saturation of a result that leaves the range of the word it is stored in.
-/

namespace TileDepot

/-- What a binary64 number stands for; a finite one is `± mantissa · 2 ^ exponent`. -/
inductive Binary64 where
  | nan
  | infinite (negative : Bool)
  | finite (negative : Bool) (mantissa : Nat) (exponent : Int)
deriving Repr, DecidableEq

/-- How a fraction becomes a whole number. -/
inductive Rounding where
  /-- The fraction is dropped. -/
  | towardZero
  /-- To the nearest whole number, a half away from zero. -/
  | halfAway
  /-- To the next whole number above. -/
  | up
deriving Repr, DecidableEq

namespace Binary64

/-- The reading of a number: eleven bits of exponent, 52 bits of fraction and the sign in front. -/
def ofFloat (x : Float) : Binary64 :=
  let bits := x.toBits.toNat
  let negative := bits / Nat.pow 2 63 == 1
  let biased : Nat := bits / Nat.pow 2 52 % Nat.pow 2 11
  let fraction : Nat := bits % Nat.pow 2 52
  if biased = 2047 then
    if fraction = 0 then .infinite negative else .nan
  else if biased = 0 then .finite negative fraction (-1074)
  else .finite negative (Nat.pow 2 52 + fraction) (biased - 1075)

/-- `mantissa · 2 ^ exponent` as a fraction of two natural numbers. -/
def fraction (mantissa : Nat) (exponent : Int) : Nat × Nat :=
  (mantissa * Nat.pow 2 exponent.toNat, Nat.pow 2 (-exponent).toNat)

/-- A fraction, taken with its sign, rounded to a whole number. -/
def roundFraction (rounding : Rounding) (negative : Bool) (num den : Nat) : Int :=
  let magnitude := match rounding, negative with
    | .towardZero, _ | .up, true => num / den
    | .halfAway, _ => (2 * num + den) / (2 * den)
    | .up, false => (num + den - 1) / den
  if negative then -magnitude else magnitude

/-- A fraction rounded to the nearest natural number, a half to the even neighbour. -/
def roundHalfEven (num den : Nat) : Nat :=
  let whole := num / den
  let rest := num % den
  if 2 * rest < den then whole
  else if 2 * rest > den then whole + 1
  else whole + whole % 2

/-- `x` cut down to the range `[low, high]`. -/
def clamp (low high x : Int) : Int :=
  if x < low then low else if high < x then high else x

/-- The whole number a reading rounds to, cut down to `[low, high]`; not-a-number counts as zero. -/
def toInt (rounding : Rounding) (low high : Int) : Binary64 → Int
  | .nan => 0
  | .infinite negative => if negative then low else high
  | .finite negative mantissa exponent =>
    let (num, den) := fraction mantissa exponent
    clamp low high (roundFraction rounding negative num den)

/-- Whether a reading is a finite whole number. -/
def isWhole : Binary64 → Bool
  | .finite _ mantissa exponent => mantissa % Nat.pow 2 (-exponent).toNat == 0
  | _ => false

/-- The position of a number in the total order of all binary64 numbers, from the negative not-a-numbers up to the
positive ones: the bits read as a signed word, with the magnitude of a negative number turned round. -/
def rank (x : Float) : Int :=
  let bits := x.toBits.toNat
  if bits / Nat.pow 2 63 = 1 then Nat.pow 2 63 - 1 - (bits : Int) else bits

/-- The number next to an integer; beyond `2 ^ 53` the nearest one, a tie to the even mantissa. -/
def ofInt (n : Int) : Float := Float.ofInt n

/-! ## Ranges -/

/-- The largest signed 128-bit word. -/
def maxInt128 : Int := Nat.pow 2 127 - 1

/-- The smallest signed 128-bit word. -/
def minInt128 : Int := -Nat.pow 2 127

/-- The largest signed 64-bit word. -/
def maxInt64 : Int := Nat.pow 2 63 - 1

/-- The smallest signed 64-bit word. -/
def minInt64 : Int := -Nat.pow 2 63

/-- The largest signed 32-bit word. -/
def maxInt32 : Int := Nat.pow 2 31 - 1

/-- The smallest signed 32-bit word. -/
def minInt32 : Int := -Nat.pow 2 31

/-- The largest unsigned 64-bit word. -/
def maxUInt64 : Nat := Nat.pow 2 64 - 1

/-- The largest unsigned 32-bit word. -/
def maxUInt32 : Nat := Nat.pow 2 32 - 1

/-! ## Helper lemmas -/

/-- What was cut down to a range lies in it. -/
theorem clamp_mem {low high x : Int} (h : low ≤ high) : low ≤ clamp low high x ∧ clamp low high x ≤ high := by
  unfold clamp
  split
  · omega
  · split <;> omega

/-- What lies in a range is not cut down. -/
theorem clamp_of_mem {low high x : Int} (hl : low ≤ x) (hh : x ≤ high) : clamp low high x = x := by
  unfold clamp
  split
  · omega
  · split <;> omega

end Binary64

end TileDepot
