import TileDepot.Run
import TileDepot.Store.Event
import TileDepot.Tile.Range

/-!
# Calls of a store

What a store can be asked for is data: a call, whose kind decides what an answer to it is. A store is then a function from
calls to runs on the state it is part of, and stores are built from stores.
-/

namespace TileDepot

/-- The parameters that tiles of a layer are stored with, by their identifier. -/
abbrev ParametersTable := Std.ExtTreeMap String Parameters

/-- What a store can be asked for. -/
inductive StoreCall where
  | get (request : Tile)
  | put (tile : Tile)
  | delete (key : TileKey)
  | deleteRange (range : TileRange)
  | deleteLayer (layer : String)
  | deleteGridset (layer gridset : String)
  | deleteParameters (layer parameters : String)
  | rename (layer target : String)
  | layerExists (layer : String)
  | parametersOf (layer : String)
  | metadata (layer key : String)
  | putMetadata (layer key value : String)
  | addListener (listener : Listener)
  | removeListener (listener : Listener)
  | clear

namespace StoreCall

/-- What an answer to a call is: a payload, if there is one; for a deletion, whether there was anything to delete. -/
abbrev Answer : StoreCall → Type
  | get _ => Option Payload
  | delete _ | deleteRange _ | deleteLayer _ | deleteGridset .. | deleteParameters .. => Bool
  | rename .. | layerExists _ | removeListener _ => Bool
  | parametersOf _ => ParametersTable
  | metadata .. => Option String
  | put _ | putMetadata .. | addListener _ | clear => Unit

/-- The name of a kind of call. -/
def verb : StoreCall → String
  | get _ => "get"
  | put _ => "put"
  | delete _ => "delete"
  | deleteRange _ => "delete_range"
  | deleteLayer _ => "delete_layer"
  | deleteGridset .. => "delete_gridset"
  | deleteParameters .. => "delete_params"
  | rename .. => "rename"
  | layerExists _ => "exists"
  | parametersOf _ => "params"
  | metadata .. => "meta_get"
  | putMetadata .. => "meta_put"
  | addListener _ => "add_listener"
  | removeListener _ => "remove_listener"
  | clear => "clear"

/-- Whether a call is about listeners; such a call cannot fail. -/
def isAboutListeners : StoreCall → Bool
  | addListener _ | removeListener _ => true
  | _ => false

end StoreCall

/-- A store of tiles as part of a larger state. -/
abbrev TileStore (σ : Type) := (call : StoreCall) → Run σ call.Answer

end TileDepot
