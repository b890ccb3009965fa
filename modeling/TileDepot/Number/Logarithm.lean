import TileDepot.Number.Binary64

/-!
# Natural logarithms

The natural logarithm of a number from one upward, rounded to the nearest binary64 number. The binary logarithm is found
digit by digit in fixed-point arithmetic: squaring a number doubles its logarithm, so the number leaves `[1, 2)` exactly
when the next binary digit is one. With 256 working digits, of which each squaring uses up at most one, the 128 digits kept
are far more than the 53 of the result need.
-/

namespace TileDepot.Binary64

/-- Binary digits behind the point of the working number. -/
def workingDigits : Nat := 256

/-- Binary digits kept of the logarithm. -/
def logDigits : Nat := 128

/-- The natural logarithm of two, in units of `2 ^ -192`. -/
def logOfTwo : Nat := 4350955369971217654477563090224794165364344896676135745069

/-- The next `count` binary digits of the binary logarithm of `y / 2 ^ workingDigits`, a number in `[1, 2)`, written
behind the digits `found` so far. -/
def fractionDigits (count y found : Nat) : Nat :=
  match count with
  | 0 => found
  | count + 1 =>
    let square := y * y / Nat.pow 2 workingDigits
    if square < Nat.pow 2 (workingDigits + 1) then fractionDigits count square (2 * found)
    else fractionDigits count (square / 2) (2 * found + 1)

/-- The binary logarithm of `mantissa · 2 ^ exponent`, in units of `2 ^ -logDigits`. -/
def log2Fixed (mantissa : Nat) (exponent : Int) : Int :=
  let top := mantissa.log2
  (top + exponent) * Nat.pow 2 logDigits + fractionDigits logDigits (mantissa * Nat.pow 2 workingDigits / Nat.pow 2 top) 0

/-- The binary64 number nearest to `n / 2 ^ shift`, for results in the normal range. -/
def ofFixed (n shift : Nat) : Float :=
  if n = 0 then 0
  else
    let top := n.log2
    let mantissa := if top ≤ 52 then n * Nat.pow 2 (52 - top) else roundHalfEven n (Nat.pow 2 (top - 52))
    let biased := top + 1023 - shift
    Float.ofBits (UInt64.ofNat (biased * Nat.pow 2 52 + (mantissa - Nat.pow 2 52)))

/-- The natural logarithm of a finite number `x ≥ 1`, to the nearest binary64 number; zero for other arguments. -/
def ln (x : Float) : Float :=
  match ofFloat x with
  | .finite false mantissa exponent => ofFixed ((log2Fixed mantissa exponent).toNat * logOfTwo) (logDigits + 192)
  | _ => 0

end TileDepot.Binary64
