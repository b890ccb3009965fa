import TileDepot.Eviction.Sweep
import TileDepot.Settings.Settings

/-!
# Accountants

An accountant listens to the store of a depot and keeps its books: every tile counts with the whole disk blocks it takes. It
knows what each layer may use, and sweeps a layer that uses more until it does not, or until nothing is left to be swept.
The layers without a quota of their own share the global quota.
-/

namespace TileDepot

/-- The settings of a depot, the policies to choose from, and the quotas of layers by layer. -/
structure Accountant where
  settings : Settings
  policies : PolicyTable
  quotas : Std.ExtTreeMap String LayerQuota
deriving Inhabited

namespace Accountant

/-- The accountant of a depot, if its settings are valid. Of several quotas for a layer the last counts. -/
def ofSettings (settings : Settings) (policies : PolicyTable) : Except Error Accountant := do
  settings.validate policies
  return ⟨settings, policies, .ofList (settings.layerQuotas.map fun quota => (quota.layer, quota))⟩

/-- The bytes that a payload takes on disk. -/
def rounded (accountant : Accountant) (size : Nat) : Nat :=
  let block := accountant.settings.blockSize
  (size + block - 1) / block * block

/-- The books after a tile has come, has gone or has changed. A tile that belongs to no page is not accounted for. -/
def account (tile : TileKey) (tiles bytes now : Int) (books : Books) : Books :=
  ((Books.recordTiles tile tiles bytes now).onState books).2

/-- Quotas with that of a layer moved to another. -/
def moveQuota (quotas : Std.ExtTreeMap String LayerQuota) (layer target : String) : Std.ExtTreeMap String LayerQuota :=
  match quotas[layer]? with
  | none => quotas
  | some quota => (quotas.erase layer).insert target { quota with layer := target }

/-- What the accountant makes of an event at a minute. -/
def hear (event : Event) (now : Int) (accountant : Accountant) (books : Books) : Accountant × Books :=
  match event with
  | .stored tile size => (accountant, account tile 1 (accountant.rounded size) now books)
  | .deleted tile size => (accountant, account tile (-1) (-(accountant.rounded size : Int)) now books)
  | .updated tile size oldSize =>
    (accountant, account tile 0 ((accountant.rounded size : Int) - accountant.rounded oldSize) now books)
  | .layerDeleted layer =>
    (accountant, ⟨books.atlas.forget layer, (books.ledger.deleteLayer layer).2⟩)
  | .layerRenamed layer target =>
    ({ accountant with quotas := moveQuota accountant.quotas layer target },
      ⟨books.atlas.forget layer, books.ledger.renameLayer layer target⟩)
  | .gridsetDeleted layer gridset =>
    (accountant, { books with ledger := (books.ledger.deleteGridset layer gridset).2 })
  | .parametersDeleted layer parameters =>
    (accountant, { books with ledger := (books.ledger.deleteParameters layer parameters).2 })

/-- What a layer may use, if it has a quota of its own. -/
def allowed (accountant : Accountant) (layer : String) : Option ByteSize := accountant.quotas[layer]?.bind (·.allowed)

/-- The quota of a layer with what is used of it. -/
def layerQuota (accountant : Accountant) (ledger : Ledger) (layer : String) : Option LayerQuota :=
  accountant.quotas[layer]?.map fun quota => { quota with used := ledger.usedByLayer layer }

/-- What a layer uses beyond its quota, if it has one. -/
def excess (accountant : Accountant) (ledger : Ledger) (layer : String) : Option ByteSize :=
  (accountant.layerQuota ledger layer).map LayerQuota.excess

/-- The layers that use more than their quota, in order. -/
def layersOverQuota (accountant : Accountant) (ledger : Ledger) : List String :=
  accountant.quotas.keys.filter fun layer => ((accountant.excess ledger layer).map ByteSize.isPositive).getD false

/-- The layers without a quota of their own. -/
def globalLayers (accountant : Accountant) (ledger : Ledger) : List String :=
  ledger.layerNames.filter fun layer => !accountant.quotas.contains layer

/-- What the layers without a quota of their own use beyond the global quota. -/
def globalExcess (accountant : Accountant) (ledger : Ledger) : ByteSize :=
  (Ledger.total ((accountant.globalLayers ledger).map ledger.usedByLayer)).sub accountant.settings.globalQuota

/-- The policy of a layer. -/
def policyFor (accountant : Accountant) (layer : String) : Except Error Policy :=
  let own := accountant.quotas[layer]?.bind (·.policy)
  accountant.policies.find (own.getD accountant.settings.policy)

/-- The policy of the layers without a quota of their own. -/
def globalPolicy (accountant : Accountant) : Except Error Policy := accountant.policies.find accountant.settings.policy

/-- The tile sets of the layers without a quota of their own. -/
def globalTileSets (accountant : Accountant) (ledger : Ledger) : List TileSet :=
  (accountant.globalLayers ledger).flatMap ledger.tileSetsOf

end Accountant

end TileDepot
