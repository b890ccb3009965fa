import TileDepot.ByteSize.Basic

/-!
# Layer quotas

A layer quota binds a layer to the size it may use and to the policy that chooses what goes when it uses more. A layer
without a size of its own is unlimited; without a policy of its own it follows the one of the whole depot.
-/

namespace TileDepot

/-- What one layer may use, and what it uses. -/
structure LayerQuota where
  layer : String
  policy : Option String
  allowed : Option ByteSize
  used : ByteSize
deriving Repr, DecidableEq, Inhabited

namespace LayerQuota

/-- A quota of which nothing is used. -/
def ofPolicy (layer policy : String) (allowed : ByteSize) : LayerQuota := ⟨layer, some policy, some allowed, .zero⟩

/-- The size the layer may use. -/
def limit (quota : LayerQuota) : ByteSize := quota.allowed.getD .unlimited

/-- The size in use beyond the limit, negative below it. -/
def excess (quota : LayerQuota) : ByteSize := quota.used.sub quota.limit

/-- The quota in words. -/
def text (quota : LayerQuota) : String :=
  let policy := quota.policy.getD "<global>"
  let allowed := (quota.allowed.map ByteSize.text).getD "unlimited"
  s!"LayerQuota[layer={quota.layer}, policy={policy}, quota={allowed}, used={quota.used.text}]"

/-- The quota as it is stored. -/
def doc (quota : LayerQuota) : Json.Doc :=
  .object [("layer", .text quota.layer), ("expirationPolicyName", .nullable .text quota.policy),
    ("quota", .nullable ByteSize.doc quota.allowed), ("usedQuota", quota.used.doc)]

/-- The fields of a stored quota. -/
def storedFields : List (String × Json.Presence) :=
  [("layer", .required), ("expirationPolicyName", .defaulted), ("quota", .defaulted), ("usedQuota", .defaulted)]

/-- The quota that was stored. -/
def ofJson? (value : Json) : Option LayerQuota := do
  match ← value.record? storedFields with
  | [some layer, policy, allowed, used] => return {
      layer := ← layer.text?
      policy := ← (policy.getD .null).nullable Json.text?
      allowed := ← (allowed.getD .null).nullable ByteSize.ofJson?
      used := ← match used with
        | none => some .zero
        | some used => ByteSize.ofJson? used }
  | _ => none

/-- The quota a JSON text stores. -/
def ofJsonText (text : String) : Except Error LayerQuota := Json.decode ofJson? text

end LayerQuota

end TileDepot
