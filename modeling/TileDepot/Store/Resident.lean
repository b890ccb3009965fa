import TileDepot.Store.Call

/-!
# Resident stores

A resident store keeps tiles in memory, with the metadata of layers and the parameters that tiles were asked for with. It
counts reads, writes and deletions. An operation answers with the store after it and with the events of its changes; in a
larger state the listeners hear of the events as soon as the operation is done. The roster of a store holds its listeners in
the order in which they signed on; who signs on twice hears twice.
-/

namespace TileDepot

/-- Those who listen. -/
structure Roster (ι : Type) where
  members : List ι
deriving Repr, DecidableEq, Inhabited

namespace Roster

variable {ι σ : Type}

/-- A roster of nobody. -/
def empty : Roster ι := ⟨[]⟩

/-- A roster with one more member. -/
def add (roster : Roster ι) (member : ι) : Roster ι := ⟨roster.members ++ [member]⟩

/-- A roster without a member, and whether the member was on it. -/
def remove [BEq ι] (roster : Roster ι) (member : ι) : Bool × Roster ι :=
  (roster.members.contains member, ⟨roster.members.filter (· != member)⟩)

/-- Everybody on the roster called in turn. Who signs on or off during the calls does not change who is called. -/
def notify (roster : Roster ι) (call : ι → σ → σ) (state : σ) : σ :=
  roster.members.foldl (fun state member => call member state) state

end Roster

/-- Tiles in memory. -/
structure Resident where
  tiles : Std.ExtTreeMap TileKey Payload
  /-- The metadata of each layer by key. -/
  metadata : Std.ExtTreeMap String (Std.ExtTreeMap String String)
  parameters : Std.ExtTreeMap String ParametersTable
  listeners : Roster Listener
  reads : Nat
  writes : Nat
  deletes : Nat

namespace Resident

/-- A store without tiles. -/
def empty : Resident := ⟨∅, ∅, ∅, .empty, 0, 0, 0⟩

instance : Inhabited Resident := ⟨empty⟩

/-- The bytes of payload held. -/
def bytes (store : Resident) : Nat := store.tiles.foldl (fun total _ payload => total + payload.size) 0

/-- The payload of a tile, which is read by this. -/
def get (store : Resident) (key : TileKey) : Option Payload × Resident :=
  (store.tiles[key]?, { store with reads := store.reads + 1 })

/-- The table with the parameters of a tile, unless it has some under their identifier already. -/
def withParameters (parameters : Std.ExtTreeMap String ParametersTable) (tile : Tile) :
    Std.ExtTreeMap String ParametersTable :=
  match tile.parametersId with
  | none => parameters
  | some id => parameters.insert tile.layer ((parameters.getD tile.layer ∅).insertIfNew id tile.parameters)

/-- A tile stored; one without payload is refused. -/
def put (store : Resident) (tile : Tile) : Except Error (Event × Resident) :=
  match tile.payload? with
  | none => .error (.invalidArgument s!"{tile.text} has no blob")
  | some payload =>
    let event := match store.tiles[tile.key]? with
      | none => Event.stored tile.key payload.size
      | some old => Event.updated tile.key payload.size old.size
    .ok (event, { store with
      tiles := store.tiles.insert tile.key payload
      parameters := withParameters store.parameters tile
      writes := store.writes + 1 })

/-- A tile deleted, and the event if there was one. -/
def delete (store : Resident) (key : TileKey) : Option Event × Resident :=
  match store.tiles[key]? with
  | none => (none, store)
  | some payload =>
    (some (.deleted key payload.size), { store with tiles := store.tiles.erase key, deletes := store.deletes + 1 })

/-- The store without the tiles that are doomed, and how many it held. -/
def dropTiles (store : Resident) (doomed : TileKey → Bool) : Nat × Resident :=
  let kept := store.tiles.filter fun key _ => !doomed key
  let count := store.tiles.size - kept.size
  (count, { store with tiles := kept, deletes := store.deletes + count })

/-- The tiles of a range deleted, with an event for each. -/
def deleteRange (store : Resident) (range : TileRange) : List Event × Resident :=
  let doomed := store.tiles.filter fun key _ => range.contains key
  (doomed.toList.map fun (key, payload) => .deleted key payload.size, (store.dropTiles range.contains).2)

/-- A layer deleted with its metadata and parameters, and whether it had tiles. -/
def deleteLayer (store : Resident) (layer : String) : Bool × Resident :=
  let (count, store) := store.dropTiles (·.layer == layer)
  (count > 0, { store with metadata := store.metadata.erase layer, parameters := store.parameters.erase layer })

/-- The tiles of a layer in a gridset deleted, and whether there were any. -/
def deleteGridset (store : Resident) (layer gridset : String) : Bool × Resident :=
  let (count, store) := store.dropTiles fun key => key.layer == layer && key.gridset == gridset
  (count > 0, store)

/-- The tiles of a layer with a set of parameters deleted with these parameters, and whether there were any. -/
def deleteParameters (store : Resident) (layer parameters : String) : Bool × Resident :=
  let (count, store) := store.dropTiles fun key => key.layer == layer && key.parameters == some parameters
  (count > 0, { store with parameters := match store.parameters[layer]? with
    | none => store.parameters
    | some table => store.parameters.insert layer (table.erase parameters) })

/-- Whether a layer has tiles or metadata. -/
def layerExists (store : Resident) (layer : String) : Bool :=
  store.tiles.keys.any (·.layer == layer) || store.metadata.contains layer

/-- A table in which an entry is moved to another key. -/
def moveEntry (table : Std.ExtTreeMap String β) (key target : String) : Std.ExtTreeMap String β :=
  match table[key]? with
  | none => table
  | some entry => (table.erase key).insert target entry

/-- Tiles with those of a layer moved to another. -/
def moveTiles (tiles : Std.ExtTreeMap TileKey Payload) (layer target : String) : Std.ExtTreeMap TileKey Payload :=
  (tiles.filter fun key _ => key.layer == layer).foldl (fun tiles key payload => tiles.insert (key.renamed target) payload)
    (tiles.filter fun key _ => key.layer != layer)

/-- A layer moved to the name of another, which must not exist, and whether anything was moved. A layer that has nothing but
metadata is not moved. -/
def rename (store : Resident) (layer target : String) : Except Error (Bool × Resident) :=
  if store.layerExists target then .error (.storage s!"cannot rename {layer} to {target}: target layer exists")
  else if !(store.tiles.keys.any (·.layer == layer)) && !store.parameters.contains layer then .ok (false, store)
  else .ok (true, { store with
    tiles := moveTiles store.tiles layer target
    metadata := moveEntry store.metadata layer target
    parameters := moveEntry store.parameters layer target })

/-- The parameters that tiles of a layer are stored with. -/
def parametersOf (store : Resident) (layer : String) : ParametersTable := store.parameters.getD layer ∅

/-- What is noted of a layer under a key. -/
def metadataAt (store : Resident) (layer key : String) : Option String := store.metadata[layer]?.bind (·[key]?)

/-- A note on a layer under a key. -/
def putMetadata (store : Resident) (layer key value : String) : Resident :=
  { store with metadata := store.metadata.insert layer ((store.metadata.getD layer ∅).insert key value) }

/-- The store without tiles, metadata and parameters; the counts and the listeners stay. -/
def clear (store : Resident) : Resident := { store with tiles := ∅, metadata := ∅, parameters := ∅ }

/-- A call answered by a store: the answer, the events of the changes, and the store after them. A call that fails changes
nothing. -/
def answer (store : Resident) : (call : StoreCall) → Except Error (call.Answer × List Event × Resident)
  | .get request =>
    let (payload, store) := store.get request.key
    .ok (payload, [], store)
  | .put tile => do
    let (event, store) ← store.put tile
    return ((), [event], store)
  | .delete key =>
    let (event, store) := store.delete key
    .ok (event.isSome, event.toList, store)
  | .deleteRange range =>
    let (events, store) := store.deleteRange range
    .ok (!events.isEmpty, events, store)
  | .deleteLayer layer =>
    let (found, store) := store.deleteLayer layer
    .ok (found, [.layerDeleted layer], store)
  | .deleteGridset layer gridset =>
    let (found, store) := store.deleteGridset layer gridset
    .ok (found, [.gridsetDeleted layer gridset], store)
  | .deleteParameters layer parameters =>
    let (found, store) := store.deleteParameters layer parameters
    .ok (found, [.parametersDeleted layer parameters], store)
  | .rename layer target => do
    let (moved, store) ← store.rename layer target
    return (moved, if moved then [.layerRenamed layer target] else [], store)
  | .layerExists layer => .ok (store.layerExists layer, [], store)
  | .parametersOf layer => .ok (store.parametersOf layer, [], store)
  | .metadata layer key => .ok (store.metadataAt layer key, [], store)
  | .putMetadata layer key value => .ok ((), [], store.putMetadata layer key value)
  | .addListener listener => .ok ((), [], { store with listeners := store.listeners.add listener })
  | .removeListener listener =>
    let (found, listeners) := store.listeners.remove listener
    .ok (found, [], { store with listeners })
  | .clear => .ok ((), [], store.clear)

/-- The state after everybody on a roster has heard of some events in turn. -/
def tell (hear : Listener → Event → σ → σ) (listeners : Roster Listener) (events : List Event) (state : σ) : σ :=
  events.foldl (fun state event => listeners.notify (hear · event) state) state

/-- A resident store that is part of a larger state. What its listeners make of an event is given by `hear`. -/
def tileStore (cell : Cell σ Resident) (hear : Listener → Event → σ → σ) : TileStore σ :=
  fun call => Run.ofState fun state =>
    match (cell.read state).answer call with
    | .error error => (.error error, state)
    | .ok (value, events, store) => (.ok value, tell hear store.listeners events (cell.write store state))

end Resident

end TileDepot
