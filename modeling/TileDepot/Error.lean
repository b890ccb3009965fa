/-!
# Errors

An error says which kind of failure stopped an operation, and in words of the domain why. Callers tell kinds apart; users
read `Error.message`. The wordings that more than one module needs are the named errors at the end.
-/

namespace TileDepot

/-- Why an operation of the depot failed. -/
inductive Error where
  /-- An argument lies outside the accepted domain. -/
  | invalidArgument (reason : String)
  /-- A name is not registered. -/
  | notFound (what : String)
  /-- A setting was rejected. -/
  | config (reason : String)
  /-- A store refused, or contradicts its records. -/
  | storage (reason : String)
  /-- The file system refused. -/
  | io (reason : String)
  /-- A text is not the YAML of a configuration. -/
  | yaml
  /-- A text is not the JSON of the value it should hold. -/
  | json
  /-- A lock was not obtained in time. -/
  | lockTimeout (key : String) (waitedMillis : Nat)
  /-- A cancellation ended the wait for a lock. -/
  | lockInterrupted (key : String)
  /-- A cancellation ended the operation. -/
  | cancelled (reason : String)
deriving Repr, DecidableEq, Inhabited

/-- The decimals of a count of milliseconds below a second, without trailing zeros. -/
def milliDecimals (millis : Nat) : String :=
  let digits := toString (1000 + millis % 1000)
  String.ofList (((digits.toList.drop 1).reverse.dropWhile (· == '0')).reverse)

/-- A duration as it is reported: in milliseconds below one second, else in seconds with no more decimals than needed. -/
def durationText (millis : Nat) : String :=
  if millis = 0 then "0ns"
  else if millis < 1000 then toString millis ++ "ms"
  else
    let decimals := milliDecimals millis
    let whole := toString (millis / 1000)
    if decimals.isEmpty then whole ++ "s" else whole ++ "." ++ decimals ++ "s"

namespace Error

/-- The name of a kind of error. -/
def kind : Error → String
  | invalidArgument _ => "InvalidArgument"
  | notFound _ => "NotFound"
  | config _ => "Config"
  | storage _ => "Storage"
  | io _ => "Io"
  | yaml => "Yaml"
  | json => "Json"
  | lockTimeout .. => "LockTimeout"
  | lockInterrupted _ => "LockInterrupted"
  | cancelled _ => "Cancelled"

/-- What a user reads. -/
def message : Error → String
  | invalidArgument reason => s!"Invalid argument: {reason}"
  | notFound what => s!"Not found: {what}"
  | config reason => s!"Configuration error: {reason}"
  | storage reason => s!"Storage error: {reason}"
  | io reason => s!"I/O error: {reason}"
  | yaml => "YAML error"
  | json => "JSON error"
  | lockTimeout key waited => s!"Timed out after {durationText waited} waiting for lock on key '" ++ key ++ "'"
  | lockInterrupted key => "Interrupted while waiting for lock on key '" ++ key ++ "'"
  | cancelled reason => s!"Cancelled: {reason}"

/-- Whether the error only says that a lock could not be had. -/
def isLockFailure : Error → Bool
  | lockTimeout .. | lockInterrupted .. => true
  | _ => false

end Error

end TileDepot
