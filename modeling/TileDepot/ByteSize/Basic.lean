import TileDepot.ByteSize.Unit
import TileDepot.Json.Reader
import TileDepot.Json.Writer

/-!
# Byte sizes

A byte size is an exact count of bytes, possibly negative, together with the unit it is reported in. A size made from an
amount keeps the unit it was stated in; arithmetic settles on the unit that fits the result best. Two sizes compare by
their bytes alone. A size is stored as an amount and its unit, and read back by converting the amount.
-/

namespace TileDepot

/-- An exact count of bytes and the unit it is reported in. -/
structure ByteSize where
  bytes : Int
  unit : ByteUnit
deriving Repr, DecidableEq, Inhabited

namespace ByteSize

/-- An amount stated in a unit. -/
def ofAmount (amount : Float) (unit : ByteUnit) : ByteSize := ⟨unit.toBytes amount, unit⟩

/-- A count of bytes in the unit that fits it best. -/
def ofBytes (bytes : Int) : ByteSize := ⟨bytes, ByteUnit.bestFit bytes⟩

/-- No bytes. -/
def zero : ByteSize := ⟨0, .B⟩

/-- A size that is never exceeded in practice. -/
def unlimited : ByteSize := ofBytes Binary64.maxInt64

/-- The size as an amount of its unit. -/
def amount (size : ByteSize) : Float := Float.ofInt size.bytes / Float.ofNat size.unit.bytes

/-- Whether the size is above zero. -/
def isPositive (size : ByteSize) : Bool := 0 < size.bytes

/-- A size with bytes added. -/
def addBytes (size : ByteSize) (bytes : Int) : ByteSize := ofBytes (size.bytes + bytes)

/-- A size with bytes taken away. -/
def subBytes (size : ByteSize) (bytes : Int) : ByteSize := ofBytes (size.bytes - bytes)

/-- The sum of two sizes. -/
def add (size other : ByteSize) : ByteSize := size.addBytes other.bytes

/-- The difference of two sizes. -/
def sub (size other : ByteSize) : ByteSize := size.subBytes other.bytes

/-- The smaller of two sizes, the first when they are equal. -/
def min (size other : ByteSize) : ByteSize := if other.bytes < size.bytes then other else size

/-- Two sizes in order of their bytes. -/
def order (size other : ByteSize) : Ordering := compare size.bytes other.bytes

/-- The size in words: at most two decimals, at least one, in the unit that fits best. -/
def text (size : ByteSize) : String :=
  let unit := ByteUnit.bestFit size.bytes
  let digits := (Binary64.toFixed 2 (Float.ofInt size.bytes / Float.ofNat unit.bytes)).toList
  let shown := if digits.getLast? = some '0' then digits.dropLast else digits
  String.ofList shown ++ " " ++ unit.name

/-! ## Sizes at rest -/

/-- The size as it is stored. -/
def doc (size : ByteSize) : Json.Doc :=
  .object [("value", .float size.amount), ("units", .text size.unit.name)]

/-- The fields of a stored size. -/
def storedFields : List (String × Json.Presence) := [("value", .required), ("units", .required)]

/-- The size that was stored. -/
def ofJson? (value : Json) : Option ByteSize := do
  match ← value.record? storedFields with
  | [some value, some unit] => return ofAmount (← value.float?) (← unit.member? ByteUnit.ofName?)
  | _ => none

/-- The size a JSON text stores. -/
def ofJsonText (text : String) : Except Error ByteSize := Json.decode ofJson? text

/-! ## Helper lemmas -/

@[simp] theorem bytes_ofBytes (bytes : Int) : (ofBytes bytes).bytes = bytes := rfl

@[simp] theorem bytes_zero : zero.bytes = 0 := rfl

@[simp] theorem bytes_addBytes (size : ByteSize) (bytes : Int) : (size.addBytes bytes).bytes = size.bytes + bytes := rfl

@[simp] theorem bytes_subBytes (size : ByteSize) (bytes : Int) : (size.subBytes bytes).bytes = size.bytes - bytes := rfl

@[simp] theorem bytes_add (size other : ByteSize) : (size.add other).bytes = size.bytes + other.bytes := rfl

@[simp] theorem bytes_sub (size other : ByteSize) : (size.sub other).bytes = size.bytes - other.bytes := rfl

/-- A size is positive when its bytes are above zero. -/
theorem isPositive_iff {size : ByteSize} : size.isPositive = true ↔ 0 < size.bytes := by
  simp [isPositive]

/-- No bytes are the size of nothing. -/
theorem ofBytes_zero : ofBytes 0 = zero := by decide

end ByteSize

end TileDepot
