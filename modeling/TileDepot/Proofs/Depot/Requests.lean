import TileDepot.Depot.Sweeps
import TileDepot.Proofs.Coverage
import TileDepot.Proofs.Tally

/-!
# Requests

The depot that the statements on quotas are about has one resident store, an accountant that listens to it from the start,
and sweeps that truncate its pages. Requests come one after the other, each to be answered at the minute of the clock; what
may go wrong with the sweeps of a request (cancellation, locks, truncations that fail) comes with the request.

How usage is recorded is a parameter of a second rendering of the same requests. With `Usage.record` it is the depot itself.
-/

namespace TileDepot

namespace LockPlan

/-- Where nobody holds a call, to take a lock changes nothing. -/
theorem onState_acquire_unheld {σ : Type} (plan : LockPlan) (key : String) (state : σ) :
    (((plan.locks DepotPlan.unheld).acquire key).onState state).2 = state := by
  unfold locks
  dsimp only
  rw [Run.onState_bind_ok (Run.onState_change _ state)]
  split <;> rfl

/-- Where no lock is refused, every lock can be taken. -/
theorem onState_acquire_free {σ : Type} {plan : LockPlan} (h : plan.refused = []) (key : String) (state : σ) :
    ((plan.locks DepotPlan.unheld).acquire key).onState state = (.ok (), state) := by
  have hfree : names plan.refused key = false := by rw [h]; rfl
  unfold locks
  rw [Run.onState_bind_ok (Run.onState_change _ _), hfree]
  rfl

/-- To release a lock changes nothing. -/
theorem onState_release {σ : Type} (plan : LockPlan) (pause : Pause σ) (key : String) (state : σ) :
    (((plan.locks pause).release key).onState state).2 = state := by
  unfold locks
  dsimp only
  split <;> rfl

end LockPlan

/-- What may go wrong with the sweeps of a request. -/
structure Conditions where
  /-- Whether the request was cancelled beforehand. -/
  cancelled : Bool
  /-- The truncation at which it is cancelled. -/
  cancelAt : Option Nat
  /-- The truncations that fail. -/
  failAt : List Nat
  locks : LockPlan
deriving Repr, DecidableEq, Inhabited

/-- Nothing goes wrong. -/
def Conditions.calm : Conditions := ⟨false, none, [], .reliable⟩

/-- Conditions in which all locks can be taken, nothing is cancelled and no truncation fails. -/
structure Conditions.Calm (conditions : Conditions) : Prop where
  cancelled : conditions.cancelled = false
  cancelAt : conditions.cancelAt = none
  failAt : conditions.failAt = []
  refused : conditions.locks.refused = []

/-- A depot with one resident store, under some conditions. -/
def DepotPlan.single (name : String) (conditions : Conditions) : DepotPlan :=
  ⟨.resident name, none, ⟨false, conditions.cancelAt, conditions.failAt⟩, conditions.locks⟩

/-- What a depot is asked for, one after the other. -/
inductive Request where
  /-- A call of the store. -/
  | call (call : StoreCall)
  /-- Hits on a tile. -/
  | hits (tile : TileKey) (hits : Nat)
  /-- The quota of a layer enforced. -/
  | enforce (conditions : Conditions) (layer : String)
  /-- The global quota enforced. -/
  | enforceGlobal (conditions : Conditions)
  /-- Some tile sets swept. -/
  | sweep (conditions : Conditions) (sets : List TileSet) (policy : Policy) (deficit : ByteSize)
  /-- The clock set. -/
  | setClock (clock : Clock)

/-- A call that keeps names plain, renames layers only to layers with the same coverages, and leaves the listeners alone. -/
def StoreCall.Admissible (table : CoverageTable) : StoreCall → Prop
  | .put tile => tile.key.Plain
  | .rename layer target => PlainName target ∧ table.SameCoverage layer target
  | .addListener _ | .removeListener _ => False
  | _ => True

namespace Request

/-- A request that keeps names plain, renames layers only to layers with the same coverages, and leaves the listeners alone. -/
def Admissible (table : CoverageTable) : Request → Prop
  | .call asked => asked.Admissible table
  | hits tile _ => tile.Plain
  | sweep _ sets _ _ => ∀ set ∈ sets, set.Plain
  | _ => True

/-- The depot after a request. -/
def perform (name : String) (depot : Depot) : Request → Depot
  | .call asked =>
    (((DepotPlan.single name .calm).tree.tileStore .whole DepotPlan.unheld asked).onState (depot.nextStep false)).2
  | hits tile count =>
    ((Depot.booksCell.run (Books.recordHits tile.tileSet tile.x tile.y tile.z count depot.clock.minutes)).onState
      (depot.nextStep false)).2
  | enforce conditions layer =>
    (((DepotPlan.single name conditions).enforce layer).onState (depot.nextStep conditions.cancelled)).2
  | enforceGlobal conditions =>
    ((DepotPlan.single name conditions).enforceGlobal.onState (depot.nextStep conditions.cancelled)).2
  | sweep conditions sets policy deficit =>
    (((DepotPlan.single name conditions).sweep sets policy deficit).onState (depot.nextStep conditions.cancelled)).2
  | setClock clock => { depot.nextStep false with clock }

end Request

namespace Depot

/-- The depot after some requests. -/
def serve (name : String) (requests : List Request) (depot : Depot) : Depot := requests.foldl (Request.perform name) depot

/-- The depot before the first request: nothing is stored, and the accountant listens. -/
def start (name : String) (clock : Clock) (table : CoverageTable) (accountant : Accountant) : Depot :=
  (DepotPlan.single name .calm).withAccountantListening
    ((DepotPlan.single name .calm).opened clock table (some accountant))

/-- The store of the depot. -/
def store (name : String) (depot : Depot) : Resident := (residentCell name).read depot

end Depot

/-! ## The covered tiles -/

namespace CoverageTable

variable {table : CoverageTable}

/-- The tiles of a store that are covered and of a kind, with their payloads. -/
def tilesOf (table : CoverageTable) (kind : TileKey → Prop) [DecidablePred kind] (store : Resident) :
    List (TileKey × Payload) :=
  store.tiles.toList.filter fun entry => kind entry.1 ∧ table.covers entry.1 = true

/-- An amount that depends on the size of a tile, added up over the covered tiles of a kind. -/
theorem sum_tilesOf (kind : TileKey → Prop) [DecidablePred kind] (amount : Nat → Int) (store : Resident) :
    ((table.tilesOf kind store).map fun entry => amount entry.2.size).sum =
      Table.weigh store.sizes fun key size => if kind key ∧ table.covers key = true then amount size else 0 := by
  rw [Resident.sizes, Table.weigh_map]
  have hfilter := Table.weigh_filter store.tiles (fun key _ => kind key ∧ table.covers key = true)
    fun _ payload => amount payload.size
  rw [Table.weigh, Std.ExtTreeMap.toList_filter] at hfilter
  simpa [tilesOf] using hfilter

/-- The number of covered tiles of a kind, as a sum over all tiles. -/
theorem length_tilesOf (kind : TileKey → Prop) [DecidablePred kind] (store : Resident) :
    ((table.tilesOf kind store).length : Int) =
      Table.weigh store.sizes fun key _ => if kind key ∧ table.covers key = true then 1 else 0 := by
  rw [← sum_tilesOf kind (fun _ => 1) store]
  simp

end CoverageTable

/-! ## A small depot -/

namespace Sample

/-- What is published of a layer: one format, and one rectangle in one gridset. -/
def coverage : LayerCoverage := ⟨["png"], .ofList [("world", [Coverage.mk 0 0 9 9 3])]⟩

/-- Two layers of which the same is published. -/
def table : CoverageTable := ⟨.ofList [("roads", coverage), ("streets", coverage)]⟩

/-- A layer of which one row is published, so many tiles wide from a column on. -/
def rowFrom (column width : Int) : LayerCoverage :=
  ⟨["png"], .ofList [("world", [Coverage.mk column 0 (column + width - 1) 0 3])]⟩

/-- A layer of which one row is published, so many tiles wide. -/
def row (width : Int) : LayerCoverage := rowFrom 0 width

/-- Three layers of which different things are published: one tile, a row, and a row five times as long in pages twice as
wide. -/
def unequalTable : CoverageTable := ⟨.ofList [("lanes", row 1), ("roads", row 10), ("streets", row 50)]⟩

/-- A layer of which the published row ends just before the largest word: its last page reaches beyond that word. -/
def farTable : CoverageTable := ⟨.ofList [("lanes", rowFrom (2 ^ 63 - 104) 103)]⟩

/-- A tile of a layer with some bytes of payload. -/
def tile (layer : String) (x y : Int) (bytes : Nat) : Tile :=
  ⟨layer, x, y, 3, "world", "png", ∅, none, some ⟨Array.replicate bytes 0⟩, bytes, 0⟩

/-- The request for a tile of a layer. -/
def request (layer : String) (x y : Int) : Tile := .request layer x y 3 "world" "png" ∅

/-- The quota that lets a layer use so many bytes. -/
def quota (layer : String) (allowed : Int) : LayerQuota :=
  .ofPolicy layer Policy.leastRecent.name (.ofBytes allowed)

/-- Settings with a quota for one layer. -/
def settings (layer : String) (allowed : Int) : Settings := { Settings.standard with layerQuotas := [quota layer allowed] }

/-- An accountant that lets one layer use so many bytes. -/
def accountant (layer : String) (allowed : Int) : Accountant :=
  ⟨settings layer allowed, .default, .ofList [(layer, quota layer allowed)]⟩

/-- The tile set of the lanes. -/
def lanes : TileSet := .of "lanes" "world" "png" none

/-- A tile on the last page of the lanes where that page reaches beyond the largest word. -/
def farTile : Tile := tile "lanes" (2 ^ 63 - 2) 0 5

/-- A depot with that tile. -/
def farDepot : Depot :=
  (Depot.start "tiles" (.atMinutes 5) farTable (accountant "lanes" 100)).serve "tiles" [.call (.put farTile)]

/-- The sample settings make the sample accountant. -/
theorem ofSettings_settings (layer : String) (allowed : Int) :
    Accountant.ofSettings (settings layer allowed) .default = .ok (accountant layer allowed) := by
  have hvalid : (settings layer allowed).validate .default = .ok () := by
    unfold Settings.validate
    simp [settings, Settings.standard, PolicyTable.default, PolicyTable.register, quota, Settings.validateLayer,
      LayerQuota.ofPolicy]
  rw [Accountant.ofSettings, hvalid]
  rfl

/-- Words have room for the pages of the sample table. -/
theorem fits_table : table.Fits := CoverageTable.fits_of_moderate (by decide +kernel)

/-- Words have room for the pages of the unequal layers. -/
theorem fits_unequalTable : unequalTable.Fits := CoverageTable.fits_of_moderate (by decide +kernel)

/-- The roads and the streets of the sample table have the same coverages. -/
theorem sameCoverage : table.SameCoverage "roads" "streets" := by
  refine CoverageTable.sameCoverage_of_layers ?_
  simp only [table, Std.ExtTreeMap.ofList_cons, Std.ExtTreeMap.insertMany_cons, Std.ExtTreeMap.insertMany_nil,
    Table.getElem?_insert]
  rfl

end Sample

/-! ## Another way to record usage -/

/-- Tiles recorded on the page of a tile, with the usage recorded in a given way. -/
def Books.recordTilesBy (record : Usage → Int → Int → Usage) (tile : TileKey) (tiles bytes now : Int) : Run Books Unit := do
  let set := tile.tileSet
  let page ← atlasCell.run (Atlas.pageOf set tile.x tile.y tile.z now)
  let slots ← atlasCell.run (Atlas.tilesPerPage set page.zoom)
  ledgerCell.change fun ledger => (ledger.addTilesBy record set page tiles slots bytes now).2

/-- What the accountant makes of an event, with the usage recorded in a given way. -/
def Accountant.hearBy (record : Usage → Int → Int → Usage) (event : Event) (now : Int) (accountant : Accountant)
    (books : Books) : Accountant × Books :=
  let account (tile : TileKey) (tiles bytes : Int) : Books := ((Books.recordTilesBy record tile tiles bytes now).onState books).2
  match event with
  | .stored tile size => (accountant, account tile 1 (accountant.rounded size))
  | .deleted tile size => (accountant, account tile (-1) (-(accountant.rounded size : Int)))
  | .updated tile size oldSize => (accountant, account tile 0 ((accountant.rounded size : Int) - accountant.rounded oldSize))
  | event => accountant.hear event now books

namespace Depot

variable (record : Usage → Int → Int → Usage)

/-- What a listener makes of an event, with the usage recorded in a given way. -/
def hearBy (listener : Listener) (event : Event) (depot : Depot) : Depot :=
  match listener with
  | .scribe name => { depot with log := depot.log ++ [s!"{name}:{event.text}"] }
  | .accountant =>
    match depot.accountant with
    | none => depot
    | some accountant =>
      let (accountant, books) := accountant.hearBy record event depot.clock.minutes (booksCell.read depot)
      booksCell.write books { depot with accountant := some accountant }

/-- The store of the depot, with the usage recorded in a given way. -/
def storeBy (name : String) : TileStore Depot := Resident.tileStore (residentCell name) (hearBy record)

end Depot

namespace DepotPlan

variable (record : Usage → Int → Int → Usage)

/-- A range truncated in a depot with one store, with the usage recorded in a given way. -/
def truncateBy (name : String) (conditions : Conditions) (range : TileRange) : Run Depot Bool := do
  let count ← Run.step fun depot => (depot.truncated.length + 1, { depot with truncated := depot.truncated ++ [range] })
  if conditions.cancelAt = some count then Depot.cancelledCell.change fun _ => true
  if conditions.failAt.contains count then throw (.storage "breeder refused")
  Depot.storeBy record name (.deleteRange range)

/-- The sweeper of a depot with one store, with the usage recorded in a given way. -/
def sweeperBy (name : String) (conditions : Conditions) (books : Cell Depot Books) : Sweeper Depot :=
  { (single name conditions).sweeper books Depot.cancelledCell with truncate := truncateBy record name conditions }

/-- The enforcer of a depot with one store, with the usage recorded in a given way. -/
def enforcerBy (name : String) (conditions : Conditions) : Enforcer Depot :=
  ⟨Depot.accountantCell, sweeperBy record name conditions Depot.booksCell⟩

end DepotPlan

namespace Request

variable (record : Usage → Int → Int → Usage)

/-- The depot after a request, with the usage recorded in a given way. -/
def performBy (name : String) (depot : Depot) : Request → Depot
  | .call asked => ((Depot.storeBy record name asked).onState (depot.nextStep false)).2
  | enforce conditions layer =>
    (((DepotPlan.enforcerBy record name conditions).enforce layer).onState (depot.nextStep conditions.cancelled)).2
  | enforceGlobal conditions =>
    ((DepotPlan.enforcerBy record name conditions).enforceGlobal.onState (depot.nextStep conditions.cancelled)).2
  | sweep conditions sets policy deficit =>
    (((DepotPlan.sweeperBy record name conditions Depot.currentBooksCell).sweep sets policy deficit).onState
      (depot.nextStep conditions.cancelled)).2
  | request => request.perform name depot

end Request

/-- The depot after some requests, with the usage recorded in a given way. -/
def Depot.serveBy (record : Usage → Int → Int → Usage) (name : String) (requests : List Request) (depot : Depot) : Depot :=
  requests.foldl (Request.performBy record name) depot

/-! ## Both renderings -/

/-- An accountant that records usage as it is hears as it does. -/
theorem Accountant.hearBy_record : hearBy Usage.record = hear := by
  funext event now accountant books
  cases event <;> rfl

/-- So does every listener of a depot. -/
theorem Depot.hearBy_record : hearBy Usage.record = hear := by
  funext listener event depot
  cases listener with
  | scribe name => rfl
  | accountant =>
    cases haccountant : depot.accountant with
    | none => simp only [hearBy, hear, haccountant]
    | some accountant => simp only [hearBy, hear, haccountant, Accountant.hearBy_record]

/-- So the store of the depot is what it is. -/
theorem Depot.storeBy_record (name : String) (conditions : Conditions) :
    storeBy Usage.record name = (DepotPlan.single name conditions).tree.tileStore .whole DepotPlan.unheld := by
  rw [storeBy, hearBy_record]
  rfl

/-- So ranges are truncated as they are. -/
theorem DepotPlan.truncateBy_record (name : String) (conditions : Conditions) :
    truncateBy Usage.record name conditions = (single name conditions).truncate Depot.cancelledCell := by
  funext range
  rw [truncateBy, truncate, Depot.storeBy_record name conditions]
  rfl

/-- So quotas are enforced as they are. -/
theorem DepotPlan.enforcerBy_record (name : String) (conditions : Conditions) :
    enforcerBy Usage.record name conditions = (single name conditions).enforcer Depot.cancelledCell := by
  rw [enforcerBy, sweeperBy, truncateBy_record]
  rfl

/-- With the usage recorded as it is, the second rendering is the depot itself. -/
theorem Request.performBy_record (name : String) : performBy Usage.record name = perform name := by
  funext depot request
  cases request with
  | call asked =>
    rw [performBy, Depot.storeBy_record name .calm]
    rfl
  | enforce conditions layer =>
    rw [performBy, DepotPlan.enforcerBy_record]
    rfl
  | enforceGlobal conditions =>
    rw [performBy, DepotPlan.enforcerBy_record]
    rfl
  | sweep conditions sets policy deficit =>
    rw [performBy, DepotPlan.sweeperBy, DepotPlan.truncateBy_record]
    rfl
  | hits | setClock => rfl

end TileDepot
