import TileDepot.Store.Records

/-!
# Brokers

A broker serves tiles from a store together with records of them. A tile is served only if it has a record that has not
expired, and only if its payload is as long as the record says. A tile is stored first and recorded then; when it cannot be
recorded it is deleted again. A broker without records serves the store alone, and no tiles with parameters.
-/

namespace TileDepot

/-- A store and the records of its tiles. -/
structure Broker (σ : Type) where
  store : TileStore σ
  records : Option (RecordStore σ)

/-- What came back of a request: the tile as far as it was filled, and whether it was found. -/
structure Served where
  tile : Tile
  found : Except Error Bool

namespace Broker

variable {σ : Type}

/-- Whether the broker serves the store alone. -/
def isStoreOnly (broker : Broker σ) : Bool := broker.records.isNone

/-- A tile as the store has it. -/
def fetch (store : TileStore σ) (tile : Tile) : StateM σ Served := do
  match ← (store (.get tile)).run with
  | .error error => return ⟨tile, .error error⟩
  | .ok none => return ⟨tile, .ok false⟩
  | .ok (some payload) => return ⟨tile.fill payload, .ok true⟩

/-- A tile that has a record, checked against it. -/
def fetchRecorded (store : TileStore σ) (tile : Tile) (record : Record) : StateM σ Served := do
  let noted := { tile with size := record.size, created := record.created }
  if record.size = 0 then return ⟨noted, .ok false⟩
  let served ← fetch store noted
  match served.found with
  | .error error => return ⟨served.tile, .error error⟩
  | .ok false =>
    return ⟨noted, .error (.storage s!"blob for {noted.text} missing, metadata records {record.size} bytes")⟩
  | .ok true =>
    if served.tile.size = record.size then return served
    else return ⟨served.tile, .error (.storage
      s!"blob for {noted.text} is {served.tile.size} bytes, metadata records {record.size}")⟩

/-- A tile served. -/
def get (broker : Broker σ) (tile : Tile) : StateM σ Served := do
  match broker.records with
  | none => if tile.hasParameters then return ⟨tile, .ok false⟩ else fetch broker.store tile
  | some records =>
    match ← (records (.get tile.key)).run with
    | .error error => return ⟨tile, .error error⟩
    | .ok none => return ⟨tile, .ok false⟩
    | .ok (some record) => fetchRecorded broker.store tile record

/-- A tile stored and recorded. When it cannot be recorded, what is stored of it is deleted, and the fault of the records is
reported, whatever becomes of the deletion. -/
def putRecorded (store : TileStore σ) (records : RecordStore σ) (tile : Tile) : Run σ Bool := do
  store (.put tile)
  match ← Run.attempt (records (.put tile)) with
  | .ok _ => return true
  | .error error =>
    Run.ignoringFailure (store (.delete tile.key))
    throw error

/-- A tile taken in, and whether the broker took it. -/
def put (broker : Broker σ) (tile : Tile) : Run σ Bool := do
  if tile.blob.isNone then throw (.invalidArgument s!"{tile.text} has no blob")
  match broker.records with
  | some records => putRecorded broker.store records tile
  | none =>
    if tile.hasParameters then return false
    broker.store (.put tile)
    return true

/-- Something asked of the records, if there are any, and then of the store, and whether either found anything. -/
def both (broker : Broker σ) (ask : RecordStore σ → Run σ Bool) (askStore : Run σ Bool) : Run σ Bool := do
  let recorded ← match broker.records with
    | some records => ask records
    | none => pure false
  let stored ← askStore
  return recorded || stored

/-- A tile deleted. -/
def delete (broker : Broker σ) (key : TileKey) : Run σ Bool :=
  broker.both (fun records => records (.delete key)) (broker.store (.delete key))

/-- A layer deleted. -/
def deleteLayer (broker : Broker σ) (layer : String) : Run σ Bool :=
  broker.both (fun records => records (.deleteLayer layer)) (broker.store (.deleteLayer layer))

/-- The tiles of a range deleted. -/
def deleteRange (broker : Broker σ) (range : TileRange) : Run σ Bool :=
  broker.both (fun records => records (.deleteRange range)) (broker.store (.deleteRange range))

/-- The tiles of a layer in a gridset deleted from the store; their records stay. -/
def deleteGridset (broker : Broker σ) (layer gridset : String) : Run σ Bool := broker.store (.deleteGridset layer gridset)

/-- The tiles of a layer with a set of parameters deleted from the store; their records stay. -/
def deleteParameters (broker : Broker σ) (layer parameters : String) : Run σ Bool :=
  broker.store (.deleteParameters layer parameters)

/-- A layer moved to the name of another. -/
def rename (broker : Broker σ) (layer target : String) : Run σ Bool :=
  broker.both (fun records => records (.rename layer target)) (broker.store (.rename layer target))

/-- The records of a range expired; a broker without records has none to expire. -/
def expire (broker : Broker σ) (range : TileRange) : Run σ Bool :=
  match broker.records with
  | some records => records (.expire range)
  | none => return false

end Broker

end TileDepot
