import TileDepot.Number.Binary64

/-!
# Decimals and the numbers nearest to them

A decimal is a natural number of digits times a power of ten. A decimal text stands for the binary64 number nearest to it;
text beyond the range of binary64 stands for an infinity or for zero. A number is written with a fixed count of decimals by
rounding its exact value once, a half to the even neighbour; the sign of a negative zero is kept.
-/

namespace TileDepot

/-- A non-negative decimal `digits · 10 ^ exponent`. -/
structure Decimal where
  digits : Nat
  exponent : Int
deriving Repr, DecidableEq

namespace Decimal

/-- A decimal with up to `fuel` trailing zeros moved into the exponent. -/
def strip (fuel : Nat) (d : Decimal) : Decimal :=
  match fuel with
  | 0 => d
  | fuel + 1 =>
    if d.digits ≠ 0 ∧ d.digits % 10 = 0 then strip fuel ⟨d.digits / 10, d.exponent + 1⟩ else d

/-- A count of decimal digits that no shorter number has: zero has none. -/
def digitCount (n : Nat) : Nat := if n = 0 then 0 else (toString n).length

/-- The binary64 number nearest to a decimal. -/
def toFloat (d : Decimal) : Float :=
  let top := d.exponent + digitCount d.digits
  if d.digits = 0 ∨ top < -400 then 0.0
  else if top > 400 then 1.0 / 0.0
  else Float.ofScientific d.digits (d.exponent < 0) d.exponent.natAbs

/-- The natural number that decimal digits write. -/
def ofDigits (digits : List Char) : Nat :=
  digits.foldl (fun n c => 10 * n + (c.toNat - '0'.toNat)) 0

/-- The decimal with these digits before and behind the point, and this power of ten. -/
def ofParts (whole fraction : List Char) (exponent : Int) : Decimal :=
  ⟨ofDigits (whole ++ fraction), exponent - fraction.length⟩

end Decimal

namespace Binary64

/-- A number with a sign in front. -/
def withSign (negative : Bool) (x : Float) : Float := if negative then -x else x

/-- The sign in front of a text, and the rest. -/
def splitSign : List Char → Bool × List Char
  | '-' :: rest => (true, rest)
  | '+' :: rest => (false, rest)
  | rest => (false, rest)

/-- The exponent written behind the digits of a number: nothing, or an `e` and a signed whole number. -/
def readExponent? : List Char → Option Int
  | [] => some 0
  | c :: rest =>
    let (negative, digits) := splitSign rest
    if (c == 'e' || c == 'E') && !digits.isEmpty && digits.all Char.isDigit then
      let n : Int := Decimal.ofDigits digits
      some (if negative then -n else n)
    else none

/-- The number an unsigned decimal text stands for: digits with a point anywhere among them and an exponent behind. -/
def readUnsigned? (text : List Char) : Option Float :=
  let whole := text.takeWhile Char.isDigit
  let rest := text.dropWhile Char.isDigit
  let (fraction, rest) := match rest with
    | '.' :: rest => (rest.takeWhile Char.isDigit, rest.dropWhile Char.isDigit)
    | rest => ([], rest)
  if whole.isEmpty && fraction.isEmpty then none
  else (readExponent? rest).map fun exponent => (Decimal.ofParts whole fraction exponent).toFloat

/-- The number a decimal text stands for; infinity and not-a-number are read in words, in any case. -/
def read? (text : String) : Option Float :=
  let (negative, rest) := splitSign text.toList
  let word := String.ofList (rest.map Char.toLower)
  if word == "inf" || word == "infinity" then some (withSign negative (1.0 / 0.0))
  else if word == "nan" then some (0.0 / 0.0)
  else (readUnsigned? rest).map (withSign negative)

/-- `units` counts `10 ^ -places`; it is written as a decimal with `places` decimals. -/
def writePlaces (places units : Nat) : String :=
  let whole := toString (units / Nat.pow 10 places)
  if places = 0 then whole
  else
    let decimals := toString (units % Nat.pow 10 places)
    whole ++ "." ++ String.ofList (List.replicate (places - decimals.length) '0') ++ decimals

/-- A number with a fixed count of decimals. -/
def toFixed (places : Nat) (x : Float) : String :=
  match ofFloat x with
  | .nan => "NaN"
  | .infinite negative => if negative then "-inf" else "inf"
  | .finite negative mantissa exponent =>
    let (num, den) := fraction mantissa exponent
    let text := writePlaces places (roundHalfEven (num * Nat.pow 10 places) den)
    if negative then "-" ++ text else text

end Binary64

end TileDepot
