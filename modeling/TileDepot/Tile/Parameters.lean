import Std.Data.ExtTreeMap
import TileDepot.Text.Characters
import TileDepot.Text.Sha256

/-!
# Request parameters

Tiles of one layer may be rendered with different parameters, a text for each name. A set of parameters is known by an
identifier: the hash of its pairs in the order of their names, each part percent-encoded so that the signs between the
parts cannot occur inside them. No parameters have no identifier.
-/

namespace TileDepot

/-- Request parameters by name. -/
abbrev Parameters := Std.ExtTreeMap String String

namespace Parameters

/-- One parameter, its parts encoded. -/
def pairText (name value : String) : List Char := Text.percentEncode name ++ '=' :: Text.percentEncode value

/-- The pairs with `&` between them. -/
def joinPairs : List (String × String) → List Char
  | [] => []
  | [(name, value)] => pairText name value
  | (name, value) :: rest => pairText name value ++ '&' :: joinPairs rest

/-- The parameters as one text. -/
def canonicalText (parameters : Parameters) : List Char := joinPairs parameters.toList

/-- The identifier of a set of parameters. -/
def identifier (parameters : Parameters) : Option String :=
  if parameters.isEmpty then none
  else some (Text.Sha256.hexDigest (parameters.canonicalText.map fun c => UInt8.ofNat c.toNat))

end Parameters

end TileDepot
