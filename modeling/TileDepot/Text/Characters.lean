/-!
# Characters

The characters with the Unicode property White_Space, and text without them at its ends. Bytes are written as pairs of
hexadecimal digits, in small or capital letters, and read in either. In percent encoding a text is written byte by byte in UTF-8:
the unreserved characters, which are the letters and digits of ASCII and `-`, `_`, `.`, `~`, stand for themselves, and every other
byte is written as `%` and two hexadecimal digits.
-/

namespace TileDepot.Text

/-! ## Blanks -/

/-- Whether a character has the property White_Space. -/
def isBlank (c : Char) : Bool :=
  let n := c.toNat
  (9 ≤ n && n ≤ 13) || n == 0x20 || n == 0x85 || n == 0xA0 || n == 0x1680 || (0x2000 ≤ n && n ≤ 0x200A)
    || n == 0x2028 || n == 0x2029 || n == 0x202F || n == 0x205F || n == 0x3000

/-- The characters of a text without the blanks at both ends. -/
def trim (text : String) : String :=
  String.ofList ((text.toList.dropWhile isBlank).reverse.dropWhile isBlank).reverse

/-- A text with the letters `A` to `Z` made small. -/
def lowerAscii (text : String) : String :=
  String.ofList (text.toList.map Char.toLower)

/-! ## Hexadecimal digits -/

/-- The hexadecimal digit of a number below 16, a small letter from ten on. -/
def hexDigit (n : Nat) : Char := if n < 10 then Char.ofNat (48 + n) else Char.ofNat (87 + n)

/-- The hexadecimal digit of a number below 16, a capital letter from ten on. -/
def hexDigitUpper (n : Nat) : Char := if n < 10 then Char.ofNat (48 + n) else Char.ofNat (55 + n)

/-- Two digits for every byte. -/
def hex (bytes : List UInt8) : String :=
  String.ofList (bytes.flatMap fun b => [hexDigit (b.toNat / 16), hexDigit (b.toNat % 16)])

/-- The sixteen digits of a word of 64 bits. -/
def hexWord (word : UInt64) : String :=
  String.ofList ((List.range 16).reverse.map fun place => hexDigit (word.toNat / Nat.pow 16 place % 16))

/-- The value of a hexadecimal digit. -/
def hexValue? (c : Char) : Option Nat :=
  if c.isDigit then some (c.toNat - '0'.toNat)
  else if 'a' ≤ c ∧ c ≤ 'f' then some (c.toNat - 'a'.toNat + 10)
  else if 'A' ≤ c ∧ c ≤ 'F' then some (c.toNat - 'A'.toNat + 10)
  else none

/-- The bytes that pairs of digits write. -/
def unhex? : List Char → Option (List UInt8)
  | [] => some []
  | [_] => none
  | high :: low :: rest => do
    let byte := UInt8.ofNat (16 * (← hexValue? high) + (← hexValue? low))
    return byte :: (← unhex? rest)

/-! ## Percent encoding -/

/-- Whether a byte is an unreserved character. -/
def isUnreserved (b : UInt8) : Bool :=
  let n := b.toNat
  (48 ≤ n && n ≤ 57) || (65 ≤ n && n ≤ 90) || (97 ≤ n && n ≤ 122) || n == 45 || n == 46 || n == 95 || n == 126

/-- The encoding of one byte. -/
def percentByte (b : UInt8) : List Char :=
  if isUnreserved b then [Char.ofNat b.toNat]
  else ['%', hexDigitUpper (b.toNat / 16), hexDigitUpper (b.toNat % 16)]

/-- The encoding of a text. -/
def percentEncode (text : String) : List Char := text.toUTF8.toList.flatMap percentByte

end TileDepot.Text
