import TileDepot.Error
import TileDepot.Number.Decimal

/-!
# YAML nodes

A document is read into nodes: scalars, which are texts written plainly or between quotes, lists and maps. What a scalar
means is decided by whoever asks for it: a plain scalar is a number or a truth value where one is wanted, any scalar is a
text where a text is wanted, and a plain scalar of nothing stands for an empty list or an empty map too.
-/

namespace TileDepot

/-- A node of a YAML document. -/
inductive Yaml where
  | plain (text : String)
  | quoted (text : String)
  | list (items : List Yaml)
  | map (entries : List (Yaml × Yaml))
deriving Inhabited

namespace Yaml

/-- The text of a scalar, as it stands. -/
def text? : Yaml → Option String
  | plain text | quoted text => some text
  | _ => none

/-- The truth value of a plain scalar. -/
def bool? : Yaml → Option Bool
  | plain "true" | plain "True" | plain "TRUE" => some true
  | plain "false" | plain "False" | plain "FALSE" => some false
  | _ => none

/-- Whether a node stands for nothing. -/
def isNull : Yaml → Bool
  | plain text => ["", "~", "null", "Null", "NULL"].contains text
  | _ => false

/-- Nothing for a null, else a value of the kind asked for. -/
def nullable (read : Yaml → Option α) (node : Yaml) : Option (Option α) :=
  if node.isNull then some none else (read node).map some

/-- The value of a digit of a base up to 16. -/
def digit? (base : Nat) (c : Char) : Option Nat :=
  let value :=
    if c.isDigit then c.toNat - '0'.toNat
    else if 'a' ≤ c ∧ c ≤ 'f' then c.toNat - 'a'.toNat + 10
    else if 'A' ≤ c ∧ c ≤ 'F' then c.toNat - 'A'.toNat + 10
    else base
  if value < base then some value else none

/-- The natural number that at least one digit of a base writes. -/
def digits? (base : Nat) (text : List Char) : Option Nat :=
  if text.isEmpty then none
  else text.foldlM (fun n c => (digit? base c).map (base * n + ·)) 0

/-- A natural number without sign: decimal without leading zeros, or hexadecimal, octal or binary with its mark. -/
def magnitude? : List Char → Option Nat
  | '0' :: 'x' :: rest => digits? 16 rest
  | '0' :: 'o' :: rest => digits? 8 rest
  | '0' :: 'b' :: rest => digits? 2 rest
  | '0' :: _ :: _ => none
  | text => digits? 10 text

/-- The whole number in `[low, high]` of a plain scalar. -/
def int? (low high : Int) : Yaml → Option Int
  | plain text => do
    let (negative, rest) := Binary64.splitSign text.toList
    let n : Int ← (magnitude? rest).map Int.ofNat
    let n := if negative then -n else n
    if low ≤ n ∧ n ≤ high then some n else none
  | _ => none

/-- The natural number up to `high` of a plain scalar; a minus sign is refused, before zero too. -/
def nat? (high : Nat) : Yaml → Option Nat
  | plain text => do
    let rest := match text.toList with
      | '+' :: rest => rest
      | rest => rest
    let n ← magnitude? rest
    if n ≤ high then some n else none
  | _ => none

/-- The number of a plain scalar: a finite decimal, or infinity or not-a-number with a dot in front. -/
def float? : Yaml → Option Float
  | plain text =>
    let unsigned := String.ofList <| match text.toList with
      | '+' :: '+' :: _ | '+' :: '-' :: _ => []
      | '+' :: rest => rest
      | rest => rest
    if [".inf", ".Inf", ".INF"].contains unsigned then some (1.0 / 0.0)
    else if ["-.inf", "-.Inf", "-.INF"].contains text then some (-1.0 / 0.0)
    else if [".nan", ".NaN", ".NAN"].contains text then some (0.0 / 0.0)
    else match Binary64.read? unsigned with
      | some x => if x.isFinite then some x else none
      | none => none
  | _ => none

/-- The items of a list. -/
def list? (read : Yaml → Option α) : Yaml → Option (List α)
  | list items => items.mapM read
  | plain "" => some []
  | _ => none

/-- The entries of a map whose keys are scalars. -/
def entries? : Yaml → Option (List (String × Yaml))
  | map entries => entries.mapM fun (key, value) => key.text?.map (·, value)
  | plain "" => some []
  | _ => none

/-- The value of a field among the entries of a map, if it is there; a field may not be given twice. -/
def field? (entries : List (String × Yaml)) (name : String) (read : Yaml → Option α) : Option (Option α) :=
  match entries.filter (·.1 == name) with
  | [] => some none
  | [(_, value)] => (read value).map some
  | _ => none

/-- The value of a field, or a default for an absent one. -/
def fieldD (entries : List (String × Yaml)) (name : String) (read : Yaml → Option α) (default : α) : Option α :=
  (field? entries name read).map (·.getD default)

/-- The value of a field that may not be absent. -/
def required? (entries : List (String × Yaml)) (name : String) (read : Yaml → Option α) : Option α :=
  (field? entries name read).join

end Yaml

end TileDepot
