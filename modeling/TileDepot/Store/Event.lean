import TileDepot.Tile.Tile

/-!
# Events

A store tells its listeners of every change. Tiles that go one by one are told one by one; the tiles of a layer, a gridset
or a set of parameters that go at once are told at once.
-/

namespace TileDepot

/-- A change of a store. Sizes are those of payloads in bytes. -/
inductive Event where
  /-- A tile was stored that was not there before. -/
  | stored (tile : TileKey) (size : Nat)
  /-- A tile was replaced. -/
  | updated (tile : TileKey) (size oldSize : Nat)
  /-- A tile was deleted. -/
  | deleted (tile : TileKey) (size : Nat)
  /-- A layer was deleted with all its tiles. -/
  | layerDeleted (layer : String)
  /-- The tiles of a layer were moved to another. -/
  | layerRenamed (layer target : String)
  /-- The tiles of a layer in a gridset were deleted. -/
  | gridsetDeleted (layer gridset : String)
  /-- The tiles of a layer with a set of parameters were deleted. -/
  | parametersDeleted (layer parameters : String)
deriving Repr, DecidableEq, Inhabited

namespace Event

/-- A tile and a size in words. -/
def tileText (tile : TileKey) (size : Nat) : String :=
  let parameters := tile.parameters.getD "-"
  s!"{tile.layer}/{tile.gridset}/{tile.format}/{parameters}/{tile.x},{tile.y},{tile.z}/{size}"

/-- The event in words. -/
def text : Event → String
  | stored tile size => s!"stored {tileText tile size}"
  | updated tile size oldSize => s!"updated {tileText tile size} was {oldSize}"
  | deleted tile size => s!"deleted {tileText tile size}"
  | layerDeleted layer => s!"layer_deleted {layer}"
  | layerRenamed layer target => s!"layer_renamed {layer} {target}"
  | gridsetDeleted layer gridset => s!"gridset_deleted {layer} {gridset}"
  | parametersDeleted layer parameters => s!"parameters_deleted {layer} {parameters}"

end Event

/-- Who listens to a store. -/
inductive Listener where
  /-- The accountant of the depot. -/
  | accountant
  /-- A listener that writes down what it hears. -/
  | scribe (name : String)
deriving Repr, DecidableEq, Inhabited

end TileDepot
