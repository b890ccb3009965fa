import TileDepot.Number.Shortest

/-!
# Numbers in JSON

A number is written with the fewest digits that read back: as a plain decimal with at least one digit behind the point
while its decimal point stands within 16 places, else with an exponent. Infinities and not-a-number are written `null`.

A literal is read in two steps. Its digits are gathered into a word of 64 bits as long as they fit, so that digits beyond
about the nineteenth only count as places; the word is then scaled by one power of ten. A result beyond the range of
binary64 is refused.
-/

namespace TileDepot.Json

/-! ## Writing -/

/-- `count` zeros. -/
def zeros (count : Nat) : String := String.ofList (List.replicate count '0')

/-- A positive decimal with this many digits before its point when that lies within 16 places, else with an exponent. -/
def decimalText (d : Decimal) : String :=
  let digits := (toString d.digits).toList
  let point : Int := digits.length + d.exponent
  if 0 ≤ d.exponent ∧ point ≤ 16 then String.ofList digits ++ zeros d.exponent.toNat ++ ".0"
  else if 0 < point ∧ point ≤ 16 then
    String.ofList (digits.take point.toNat) ++ "." ++ String.ofList (digits.drop point.toNat)
  else if -5 < point ∧ point ≤ 0 then "0." ++ zeros (-point).toNat ++ String.ofList digits
  else
    let fraction := digits.drop 1
    let mantissa := String.ofList (digits.take 1) ++ (if fraction.isEmpty then "" else "." ++ String.ofList fraction)
    let exponent := point - 1
    mantissa ++ (if exponent < 0 then "e-" else "e+") ++ toString exponent.natAbs

/-- The text of a number. -/
def floatText (x : Float) : String :=
  match Binary64.ofFloat x with
  | .nan | .infinite _ => "null"
  | .finite negative mantissa exponent =>
    let text := if mantissa = 0 then "0.0" else decimalText (Binary64.shortest mantissa exponent)
    if negative then "-" ++ text else text

/-! ## Reading -/

/-- A number literal taken apart. -/
structure Literal where
  negative : Bool
  whole : List Char
  /-- The digits behind the point, if there is a point. -/
  fraction : Option (List Char)
  /-- The sign and the digits of the exponent, if there is one. -/
  exponent : Option (Bool × List Char)
deriving Repr, DecidableEq

namespace Literal

/-- The whole digits at the start of a text: a single zero, or digits that start with no zero. -/
def takeWhole : List Char → Option (List Char × List Char)
  | '0' :: rest => some (['0'], rest)
  | text =>
    let digits := text.takeWhile Char.isDigit
    if digits.isEmpty then none else some (digits, text.dropWhile Char.isDigit)

/-- The digits behind a point at the start of a text; a point needs at least one. -/
def takeFraction : List Char → Option (Option (List Char) × List Char)
  | '.' :: rest =>
    let digits := rest.takeWhile Char.isDigit
    if digits.isEmpty then none else some (some digits, rest.dropWhile Char.isDigit)
  | rest => some (none, rest)

/-- The exponent at the start of a text; it needs at least one digit. -/
def takeExponent (text : List Char) : Option (Option (Bool × List Char) × List Char) :=
  match text with
  | c :: rest =>
    if c == 'e' || c == 'E' then
      let (negative, rest) := Binary64.splitSign rest
      let digits := rest.takeWhile Char.isDigit
      if digits.isEmpty then none else some (some (negative, digits), rest.dropWhile Char.isDigit)
    else some (none, text)
  | [] => some (none, [])

/-- The number literal at the start of a text, and the rest of the text. -/
def take (text : List Char) : Option (Literal × List Char) := do
  let (negative, rest) := match text with
    | '-' :: rest => (true, rest)
    | rest => (false, rest)
  let (whole, rest) ← takeWhole rest
  let (fraction, rest) ← takeFraction rest
  let (exponent, rest) ← takeExponent rest
  return (⟨negative, whole, fraction, exponent⟩, rest)

/-- Digits gathered behind a word as long as it stays a word of 64 bits: the word, and the digits left over. -/
def gather (word : Nat) : List Char → Nat × List Char
  | [] => (word, [])
  | c :: rest =>
    let next := 10 * word + (c.toNat - '0'.toNat)
    if next ≤ Binary64.maxUInt64 then gather next rest else (word, c :: rest)

/-- A word scaled by one power of ten; `none` beyond the range. A power below `10 ^ -308` is taken in steps. -/
def scale (fuel : Nat) (x : Float) (exponent : Int) : Option Float :=
  match fuel with
  | 0 => some x
  | fuel + 1 =>
    if exponent.natAbs ≤ 308 then
      let power := Float.ofScientific 1 false exponent.natAbs
      if exponent < 0 then some (x / power)
      else if (x * power).isInf then none else some (x * power)
    else if x == 0.0 then some x
    else if exponent > 0 then none
    else scale fuel (x / 1e308) (exponent + 308)

/-- The largest exponent that is read as a number. -/
def maxExponent : Nat := Nat.pow 2 31 - 1

/-- The literal as a number with a fraction; `none` beyond the range. -/
def toFloat? (l : Literal) : Option Float := do
  let (word, extra) := gather 0 l.whole
  let (word, places) := match l.fraction with
    | none => (word, (extra.length : Int))
    | some fraction =>
      let (word, rest) := gather word fraction
      (word, (extra.length : Int) - (fraction.length - rest.length : Nat))
  let (negativeExponent, digits) := l.exponent.getD (false, [])
  let written := Decimal.ofDigits digits
  let magnitude ←
    if written > maxExponent then
      if word ≠ 0 ∧ ¬negativeExponent then none else some 0.0
    else scale 8 (Float.ofNat word) (places + if negativeExponent then -(written : Int) else written)
  return Binary64.withSign l.negative magnitude

/-- The literal as a whole number: it has neither fraction nor exponent, is not a negative zero, and fits a word of 64
bits, signed if it is negative. -/
def toInt? (l : Literal) : Option Int :=
  let n := Decimal.ofDigits l.whole
  if l.fraction.isSome || l.exponent.isSome then none
  else if l.negative then
    if n = 0 ∨ n > Nat.pow 2 63 then none else some (-n)
  else if n ≤ Binary64.maxUInt64 then some n else none

end Literal

end TileDepot.Json
