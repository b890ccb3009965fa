import TileDepot.Store.Call

/-!
# Stores of two tiers

A fast front store stands before an authoritative backing store. What the front store does not hold is read from the backing
store and put into the front store; whether that succeeds does not matter. Changes go to both, to the front store first, and
end at the first failure. Parameters and listeners are those of the backing store.
-/

namespace TileDepot.TwoTier

variable {σ : Type}

/-- A tile from the front store, or else from the backing store. -/
def get (front backing : TileStore σ) (request : Tile) : Run σ (Option Payload) := do
  match ← front (.get request) with
  | some payload => return some payload
  | none =>
    match ← backing (.get request) with
    | none => return none
    | some payload =>
      Run.ignoringFailure (front (.put (request.fill payload)))
      return some payload

/-- Something asked of both tiers, and whether either found anything. -/
def both (front backing : Run σ Bool) : Run σ Bool := do
  let inFront ← front
  let inBacking ← backing
  return inFront || inBacking

/-- Whether a layer exists in the front store, or else in the backing store. -/
def layerExists (front backing : TileStore σ) (layer : String) : Run σ Bool := do
  if ← front (.layerExists layer) then return true
  backing (.layerExists layer)

/-- A note on a layer from the front store, or else from the backing store. -/
def metadata (front backing : TileStore σ) (layer key : String) : Run σ (Option String) := do
  match ← front (.metadata layer key) with
  | some value => return some value
  | none =>
    match ← backing (.metadata layer key) with
    | none => return none
    | some value =>
      Run.ignoringFailure (front (.putMetadata layer key value))
      return some value

/-- A store of a front store and a backing store. -/
def tileStore (front backing : TileStore σ) : TileStore σ
  | .get request => get front backing request
  | .put tile => do
    front (.put tile)
    backing (.put tile)
  | .delete key => both (front (.delete key)) (backing (.delete key))
  | .deleteRange range => both (front (.deleteRange range)) (backing (.deleteRange range))
  | .deleteLayer layer => both (front (.deleteLayer layer)) (backing (.deleteLayer layer))
  | .deleteGridset layer gridset => both (front (.deleteGridset layer gridset)) (backing (.deleteGridset layer gridset))
  | .deleteParameters layer parameters =>
    both (front (.deleteParameters layer parameters)) (backing (.deleteParameters layer parameters))
  | .rename layer target => both (front (.rename layer target)) (backing (.rename layer target))
  | .layerExists layer => layerExists front backing layer
  | .metadata layer key => metadata front backing layer key
  | .putMetadata layer key value => do
    front (.putMetadata layer key value)
    backing (.putMetadata layer key value)
  | .clear => do
    front .clear
    backing .clear
  | .parametersOf layer => backing (.parametersOf layer)
  | .addListener listener => backing (.addListener listener)
  | .removeListener listener => backing (.removeListener listener)

end TileDepot.TwoTier
