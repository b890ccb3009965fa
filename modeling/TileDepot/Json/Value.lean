import TileDepot.Json.Number

/-!
# JSON values

A value keeps what a reader may need to refuse: numbers as the literals they were written as, and texts that hold a lone
surrogate escape, which stand for no text. Values that nobody asks for may hold either.

A record is read from an object by the names of its fields, or from an array by their order. Unknown fields are passed
over, and a field given twice is refused.
-/

namespace TileDepot

/-- A JSON value. A text of `none` holds a surrogate escape without its partner. -/
inductive Json where
  | null
  | bool (value : Bool)
  | number (literal : Json.Literal)
  | text (value : Option String)
  | array (items : List Json)
  | object (fields : List (Option String × Json))

namespace Json

/-- The text a value is. -/
def text? : Json → Option String
  | text value => value
  | _ => none

/-- The truth value a value is. -/
def bool? : Json → Option Bool
  | bool value => some value
  | _ => none

/-- The whole number in `[low, high]` that a value is. -/
def int? (low high : Int) : Json → Option Int
  | number literal => do
    let n ← literal.toInt?
    if low ≤ n ∧ n ≤ high then some n else none
  | _ => none

/-- The number a value is, a whole number or one with a fraction. -/
def float? : Json → Option Float
  | number literal =>
    match literal.toInt? with
    | some n => some (Float.ofInt n)
    | none => literal.toFloat?
  | _ => none

/-- The list a value is. -/
def list? (read : Json → Option α) : Json → Option (List α)
  | array items => items.mapM read
  | _ => none

/-- The fields of an object, whose names all stand for texts. -/
def fields? : Json → Option (List (String × Json))
  | object fields => fields.mapM fun (name, value) => name.map (·, value)
  | _ => none

/-- Nothing for `null`, else a value of the kind asked for. -/
def nullable (read : Json → Option α) : Json → Option (Option α)
  | null => some none
  | value => (read value).map some

/-- What holds of a field that a record does not give. -/
inductive Presence where
  /-- The record is refused. -/
  | required
  /-- In an object the field reads as `null`. -/
  | optional
  /-- The field has a value of its own. -/
  | defaulted
deriving DecidableEq

/-- The value of one field of an object, `none` for a field that is absent and defaulted. -/
def field? (fields : List (String × Json)) (name : String) (presence : Presence) : Option (Option Json) :=
  match fields.filter (·.1 == name), presence with
  | [(_, value)], _ => some (some value)
  | [], .optional => some (some null)
  | [], .defaulted => some none
  | _, _ => none

/-- The values of fields given in order; only defaulted fields may be absent at the end. -/
def inOrder? : List (String × Presence) → List Json → Option (List (Option Json))
  | [], [] => some []
  | [], _ :: _ => none
  | _ :: spec, value :: values => (inOrder? spec values).map (some value :: ·)
  | (_, presence) :: spec, [] =>
    if presence = .defaulted then (inOrder? spec []).map (none :: ·) else none

/-- The values of a record's fields, in the order of its specification. -/
def record? (spec : List (String × Presence)) : Json → Option (List (Option Json))
  | array items => inOrder? spec items
  | value => do
    let fields ← value.fields?
    spec.mapM fun (name, presence) => field? fields name presence

/-- The member of an enumeration that a value names: its name, or an object with the name alone and `null`. -/
def member? (ofName? : String → Option α) : Json → Option α
  | text (some name) => ofName? name
  | object [(some name, null)] => ofName? name
  | _ => none

end Json

end TileDepot
