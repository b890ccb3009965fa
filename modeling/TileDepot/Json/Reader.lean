import TileDepot.Error
import TileDepot.Json.Value
import TileDepot.Text.Characters

/-!
# Reading JSON

A text is one value with blanks around it. Each step reads the start of a text and hands on the rest; the depth to which it
may recurse is bounded by the length of the text.
-/

namespace TileDepot.Json

/-- The blanks of JSON. -/
def isSpace (c : Char) : Bool := c == ' ' || c == '\n' || c == '\t' || c == '\r'

/-- A text without the blanks it starts with. -/
def skipSpace (text : List Char) : List Char := text.dropWhile isSpace

/-- The code unit that four hexadecimal digits write. -/
def hexUnit? (a b c d : Char) : Option Nat := do
  return ((← Text.hexValue? a) * 16 + (← Text.hexValue? b)) * 256 + (← Text.hexValue? c) * 16 + (← Text.hexValue? d)

/-- The characters that stand for themselves or for a control character behind a backslash. -/
def simpleEscape? : Char → Option Char
  | '"' => some '"'
  | '\\' => some '\\'
  | '/' => some '/'
  | 'b' => some '\x08'
  | 'f' => some '\x0c'
  | 'n' => some '\n'
  | 'r' => some '\r'
  | 't' => some '\t'
  | _ => none

/-- Code units gathered from a text literal, the last first; a surrogate stays a unit of its own. -/
def readUnits (fuel : Nat) (text : List Char) (units : List Nat) : Option (List Nat × List Char) :=
  match fuel with
  | 0 => none
  | fuel + 1 =>
    match text with
    | '"' :: rest => some (units, rest)
    | '\\' :: 'u' :: a :: b :: c :: d :: rest => do readUnits fuel rest ((← hexUnit? a b c d) :: units)
    | '\\' :: c :: rest => do readUnits fuel rest ((← simpleEscape? c).toNat :: units)
    | c :: rest => if c.toNat < 0x20 ∨ c = '\\' then none else readUnits fuel rest (c.toNat :: units)
    | [] => none

/-- The text that code units stand for: a high surrogate joins with the low one behind it, and none may stand alone. -/
def joinUnits : List Nat → Option (List Char)
  | [] => some []
  | [unit] => if 0xD800 ≤ unit ∧ unit < 0xE000 then none else some [Char.ofNat unit]
  | high :: low :: rest =>
    if 0xD800 ≤ high ∧ high < 0xDC00 then
      if 0xDC00 ≤ low ∧ low < 0xE000 then
        (joinUnits rest).map (Char.ofNat (0x10000 + (high - 0xD800) * 0x400 + (low - 0xDC00)) :: ·)
      else none
    else if 0xDC00 ≤ high ∧ high < 0xE000 then none
    else (joinUnits (low :: rest)).map (Char.ofNat high :: ·)

/-- The text literal at the start of a text, behind its opening quote. -/
def readText (text : List Char) : Option (Option String × List Char) := do
  let (units, rest) ← readUnits (text.length + 1) text []
  return ((joinUnits units.reverse).map String.ofList, rest)

/-- A text without a word at its start. -/
def dropWord : List Char → List Char → Option (List Char)
  | [], rest => some rest
  | c :: word, d :: rest => if c = d then dropWord word rest else none
  | _ :: _, [] => none

mutual

/-- The value at the start of a text. -/
def readValue (fuel : Nat) (text : List Char) : Option (Json × List Char) :=
  match fuel with
  | 0 => none
  | fuel + 1 =>
    match skipSpace text with
    | 'n' :: rest => (dropWord "ull".toList rest).map (null, ·)
    | 't' :: rest => (dropWord "rue".toList rest).map (bool true, ·)
    | 'f' :: rest => (dropWord "alse".toList rest).map (bool false, ·)
    | '"' :: rest => (readText rest).map fun (value, rest) => (Json.text value, rest)
    | '[' :: rest =>
      match skipSpace rest with
      | ']' :: rest => some (array [], rest)
      | rest => (readItems fuel rest []).map fun (items, rest) => (array items, rest)
    | '\x7b' :: rest =>
      match skipSpace rest with
      | '\x7d' :: rest => some (object [], rest)
      | rest => (readFields fuel rest []).map fun (fields, rest) => (object fields, rest)
    | rest => (Literal.take rest).map fun (literal, rest) => (number literal, rest)

/-- The items of an array up to its closing bracket. -/
def readItems (fuel : Nat) (text : List Char) (items : List Json) : Option (List Json × List Char) :=
  match fuel with
  | 0 => none
  | fuel + 1 => do
    let (item, rest) ← readValue fuel text
    match skipSpace rest with
    | ',' :: rest => readItems fuel rest (item :: items)
    | ']' :: rest => some ((item :: items).reverse, rest)
    | _ => none

/-- The fields of an object up to its closing brace. -/
def readFields (fuel : Nat) (text : List Char) (fields : List (Option String × Json)) :
    Option (List (Option String × Json) × List Char) :=
  match fuel with
  | 0 => none
  | fuel + 1 => do
    match skipSpace text with
    | '"' :: rest =>
      let (name, rest) ← readText rest
      match skipSpace rest with
      | ':' :: rest =>
        let (value, rest) ← readValue fuel rest
        match skipSpace rest with
        | ',' :: rest => readFields fuel rest ((name, value) :: fields)
        | '\x7d' :: rest => some (((name, value) :: fields).reverse, rest)
        | _ => none
      | _ => none
    | _ => none

end

/-- The value a text is. -/
def read? (text : String) : Option Json := do
  let chars := text.toList
  let (value, rest) ← readValue (chars.length + 1) chars
  if (skipSpace rest).isEmpty then some value else none

/-- The value a text is, read by `decode`; any fault is an error of the text. -/
def decode (read : Json → Option α) (text : String) : Except Error α :=
  match read? text >>= read with
  | some value => .ok value
  | none => .error .json

end TileDepot.Json
