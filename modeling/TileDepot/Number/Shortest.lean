import TileDepot.Number.Decimal

/-!
# The shortest decimal that reads back

Every finite binary64 number is the one nearest to each real in an interval around it. Of the decimals in that interval
the shortest is written; of several of that length the one nearest to the number, and of two equally near the one with the
even last digit. The search is exact: the digit counts from 1 to 17 are tried in turn, and for each count only the two
decimals next to the number can lie in the interval.
-/

namespace TileDepot

namespace Binary64

/-- The reals that round to `mantissa · 2 ^ exponent`, as quarters of a unit in the last place: from `low` to `high`
below and above `4 · mantissa`. The step below a power of two is half as wide, except at the smallest exponent. -/
def interval (mantissa : Nat) (exponent : Int) : Nat × Nat :=
  let low := if mantissa = Nat.pow 2 52 ∧ exponent > -1074 then 4 * mantissa - 1 else 4 * mantissa - 2
  (low, 4 * mantissa + 2)

/-- `n · 2 ^ exponent / 10 ^ grid` as a fraction of two natural numbers. -/
def onGrid (n : Nat) (exponent grid : Int) : Nat × Nat :=
  (n * Nat.pow 2 exponent.toNat * Nat.pow 10 (-grid).toNat, Nat.pow 2 (-exponent).toNat * Nat.pow 10 grid.toNat)

/-- Whether the decimal `digits · 10 ^ grid` rounds to `mantissa · 2 ^ exponent`; the ends of the interval do so when the
mantissa is even. -/
def roundsTo (mantissa : Nat) (exponent : Int) (digits : Nat) (grid : Int) : Bool :=
  let (low, high) := interval mantissa exponent
  let (lowNum, den) := onGrid low (exponent - 2) grid
  let (highNum, _) := onGrid high (exponent - 2) grid
  let point := digits * den
  if mantissa % 2 = 0 then lowNum ≤ point && point ≤ highNum else lowNum < point && point < highNum

/-- The decimal on the grid `10 ^ grid` that rounds to `mantissa · 2 ^ exponent` and is nearest to it, if there is one. -/
def nearestOnGrid (mantissa : Nat) (exponent grid : Int) : Option Nat :=
  let (num, den) := onGrid mantissa exponent grid
  let below := num / den
  let rest := num % den
  let fitsBelow := below ≠ 0 && roundsTo mantissa exponent below grid
  let fitsAbove := roundsTo mantissa exponent (below + 1) grid
  match fitsBelow, fitsAbove with
  | true, true =>
    if 2 * rest < den then some below
    else if 2 * rest > den then some (below + 1)
    else some (below + below % 2)
  | true, false => some below
  | false, true => some (below + 1)
  | false, false => none

/-- The power of ten just above `mantissa · 2 ^ exponent`: the least `k`, searched from an estimate below it, with
`mantissa · 2 ^ exponent < 10 ^ k`. -/
def decimalScale (fuel : Nat) (mantissa : Nat) (exponent k : Int) : Int :=
  match fuel with
  | 0 => k
  | fuel + 1 =>
    let (num, den) := onGrid mantissa exponent k
    if num < den then k else decimalScale fuel mantissa exponent (k + 1)

/-- The first grid with a hit, from `count` digits on. -/
def searchGrids (fuel : Nat) (mantissa : Nat) (exponent scale : Int) (count : Nat) : Decimal :=
  match fuel with
  | 0 => ⟨mantissa, 0⟩
  | fuel + 1 =>
    let grid := scale - count
    match nearestOnGrid mantissa exponent grid with
    | some digits => ⟨digits, grid⟩
    | none => searchGrids fuel mantissa exponent scale (count + 1)

/-- The shortest decimal that reads back as the positive number `mantissa · 2 ^ exponent`. -/
def shortest (mantissa : Nat) (exponent : Int) : Decimal :=
  -- `2 ^ b` with `b` bits more than the exponent bounds the number, and `0.3 < log 2 / log 10 < 0.302`
  let bits : Int := mantissa.log2 + exponent
  let estimate : Int := if bits ≥ 0 then bits * 30 / 100 else bits * 302 / 1000 - 1
  let scale := decimalScale 32 mantissa exponent estimate
  (searchGrids 17 mantissa exponent scale 1).strip 20

end Binary64

end TileDepot
