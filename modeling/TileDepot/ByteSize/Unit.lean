import TileDepot.Error
import TileDepot.Number.Binary64
import TileDepot.Text.Characters

/-!
# Units of storage

Byte counts are stated in powers of 1024 bytes, from single bytes to pebibytes. An amount in a unit is a binary64 number;
the bytes it stands for are a whole number, a half rounded away from zero.
-/

namespace TileDepot

/-- A unit of storage, each 1024 times the one before. -/
inductive ByteUnit where
  | B | KiB | MiB | GiB | TiB | PiB
deriving Repr, DecidableEq, Inhabited

namespace ByteUnit

/-- All units, the smallest first. -/
def all : List ByteUnit := [B, KiB, MiB, GiB, TiB, PiB]

/-- The name under which a unit is read and written. -/
def name : ByteUnit → String
  | B => "B"
  | KiB => "KiB"
  | MiB => "MiB"
  | GiB => "GiB"
  | TiB => "TiB"
  | PiB => "PiB"

/-- The power of 1024 that a unit is. -/
def power : ByteUnit → Nat
  | B => 0
  | KiB => 1
  | MiB => 2
  | GiB => 3
  | TiB => 4
  | PiB => 5

/-- The bytes in one unit. -/
def bytes (unit : ByteUnit) : Nat := Nat.pow 1024 unit.power

/-- The unit with exactly this name. -/
def ofName? (name : String) : Option ByteUnit := all.find? (·.name == name)

/-- The unit a text names, whatever its case and the blanks around it. -/
def parse (text : String) : Except Error ByteUnit :=
  let wanted := Text.lowerAscii (Text.trim text)
  match all.find? (fun unit => Text.lowerAscii unit.name == wanted) with
  | some unit => .ok unit
  | none => .error (.invalidArgument s!"Unknown storage unit: {text}")

/-- The whole bytes in an amount of a unit. A whole amount below `2 ^ 53` is converted exactly; any other is multiplied as a
binary64 number first and rounded after. -/
def toBytes (unit : ByteUnit) (amount : Float) : Int :=
  let whole := Binary64.ofFloat amount
  if whole.isWhole && amount.abs < 9007199254740992.0 then
    whole.toInt .towardZero Binary64.minInt128 Binary64.maxInt128 * unit.bytes
  else
    (Binary64.ofFloat (amount * Float.ofNat unit.bytes)).toInt .halfAway Binary64.minInt128 Binary64.maxInt128

/-- An amount of one unit stated in another. -/
def convert (unit : ByteUnit) (amount : Float) (target : ByteUnit) : Float :=
  if unit = target then amount else amount * (Float.ofNat unit.bytes / Float.ofNat target.bytes)

/-- The largest unit of which a byte count holds at least one whole, in either direction; else single bytes. -/
def bestFit (bytes : Int) : ByteUnit :=
  (all.reverse.find? (fun unit => unit.bytes ≤ bytes.natAbs)).getD B

/-! ## Helper lemmas -/

/-- A unit stands for at least one byte. -/
theorem bytes_pos (unit : ByteUnit) : 0 < unit.bytes := Nat.pow_pos (by decide)

/-- A unit is found by its own name. -/
@[simp] theorem ofName?_name (unit : ByteUnit) : ofName? unit.name = some unit := by
  cases unit <;> decide

/-- What is nothing is shown in bytes. -/
@[simp] theorem bestFit_zero : bestFit 0 = B := by decide

end ByteUnit

end TileDepot
