import TileDepot.Json.Number

/-!
# Writing JSON

A document holds what is written: texts, numbers already put into words, lists and records with their fields in order. It
is written either on one line without blanks, or with two blanks of indentation for each level.
-/

namespace TileDepot.Json

/-- A document to be written. -/
inductive Doc where
  /-- `null`, a truth value or a number, as it stands. -/
  | plain (literal : String)
  | text (value : String)
  | array (items : List Doc)
  | object (fields : List (String × Doc))

namespace Doc

/-- A whole number. -/
def int (n : Int) : Doc := .plain (toString n)

/-- A natural number. -/
def nat (n : Nat) : Doc := .plain (toString n)

/-- A number with a fraction. -/
def float (x : Float) : Doc := .plain (floatText x)

/-- A truth value. -/
def bool (value : Bool) : Doc := .plain (if value then "true" else "false")

/-- `null` for nothing. -/
def nullable (write : α → Doc) : Option α → Doc
  | none => .plain "null"
  | some value => write value

/-- The digits of an escaped control character. -/
def hexPair (n : Nat) : List Char := [Nat.digitChar (n / 16), Nat.digitChar (n % 16)]

/-- A character inside a text. -/
def escapeChar (c : Char) : List Char :=
  match c with
  | '"' => ['\\', '"']
  | '\\' => ['\\', '\\']
  | '\x08' => ['\\', 'b']
  | '\x0c' => ['\\', 'f']
  | '\n' => ['\\', 'n']
  | '\r' => ['\\', 'r']
  | '\t' => ['\\', 't']
  | c => if c.toNat < 0x20 then '\\' :: 'u' :: '0' :: '0' :: hexPair c.toNat else [c]

/-- A text between quotes. -/
def quote (value : String) : String :=
  "\"" ++ String.ofList (value.toList.flatMap escapeChar) ++ "\""

mutual

/-- The document on one line. -/
def compact : Doc → String
  | plain literal => literal
  | text value => quote value
  | array items => "[" ++ ",".intercalate (compactItems items) ++ "]"
  | object fields => "\x7b" ++ ",".intercalate (compactFields fields) ++ "\x7d"

/-- The items of a list, each on one line. -/
def compactItems : List Doc → List String
  | [] => []
  | item :: items => compact item :: compactItems items

/-- The fields of a record, each on one line. -/
def compactFields : List (String × Doc) → List String
  | [] => []
  | (name, value) :: fields => (quote name ++ ":" ++ compact value) :: compactFields fields

end

/-- A line break and the indentation of a level. -/
def newline (level : Nat) : String := "\n" ++ String.ofList (List.replicate (2 * level) ' ')

/-- Parts between brackets, each on a line of its own; no parts leave the brackets empty. -/
def block (opening closing : String) (level : Nat) (parts : List String) : String :=
  if parts.isEmpty then opening ++ closing
  else opening ++ newline (level + 1) ++ (("," ++ newline (level + 1)).intercalate parts) ++ newline level ++ closing

mutual

/-- The document over several lines, inside a level of indentation. -/
def pretty (level : Nat) : Doc → String
  | plain literal => literal
  | text value => quote value
  | array items => block "[" "]" level (prettyItems (level + 1) items)
  | object fields => block "\x7b" "\x7d" level (prettyFields (level + 1) fields)

/-- The items of a list over several lines. -/
def prettyItems (level : Nat) : List Doc → List String
  | [] => []
  | item :: items => pretty level item :: prettyItems level items

/-- The fields of a record over several lines. -/
def prettyFields (level : Nat) : List (String × Doc) → List String
  | [] => []
  | (name, value) :: fields => (quote name ++ ": " ++ pretty level value) :: prettyFields level fields

end

end Doc

end TileDepot.Json
