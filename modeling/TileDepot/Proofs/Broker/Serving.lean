import TileDepot.Proofs.Store.Alone

/-!
# What brokers serve

A broker is over a resident store and records where both are seen of its state, whatever else is part of it. What it serves of a
tile depends on nothing else than the tiles of the store and the records.
-/

namespace TileDepot

variable {σ α : Type}

/-! ## Gates -/

/-- Where nobody holds a call, a gate notes it and hands it on, unless it refuses the verb. -/
theorem Gate.onState_pass_unheld {cell : Cell σ Gate} (hcell : ∀ gate state, cell.read (cell.write gate state) = gate)
    (name verb : String) (call : Run σ α) (state : σ) :
    (pass cell name verb DepotPlan.unheld call).onState state =
      if (cell.read state).refused.contains verb then
        (.error (refusal name verb), cell.write ((cell.read state).note verb) state)
      else call.onState (cell.write ((cell.read state).note verb) state) := by
  have hrefused : (cell.read (cell.write ((cell.read state).note verb) state)).refused = (cell.read state).refused := by
    rw [hcell]
    rfl
  have hnoted : (cell.change (·.note verb)).onState state = (.ok (), cell.write ((cell.read state).note verb) state) := rfl
  rw [pass, Run.onState_bind_ok hnoted, Run.onState_bind_ok (Run.onState_cell_get _ _), hrefused]
  split
  · rfl
  · dsimp only
    rw [Run.onState_bind_ok (Run.onState_change _ _), Run.onState_bind_ok (Run.onState_attempt _ _),
      Run.onState_bind_ok (Run.onState_change _ _)]
    rfl

/-- What goes on from the answer of a run, whether it failed or not. -/
theorem Run.run_bind_answer {β : Type} {run : Run σ α} {next : Except Error α → StateM σ β} {state after : σ}
    {answer : Except Error α} (h : run.onState state = (answer, after)) :
    (ExceptT.run run >>= next).run state = (next answer).run after := by
  change (ExceptT.run run).run state = _ at h
  rw [StateT.run_bind, h]
  rfl

/-- What neither a resident store nor its listeners touch stays as it is. -/
theorem Resident.view_onState_tileStore {γ : Type} (view : σ → γ) {cell : Cell σ Resident} {hear : Listener → Event → σ → σ}
    (hhear : ∀ listener event state, view (hear listener event state) = view state)
    (hwrite : ∀ store state, view (cell.write store state) = view state) (call : StoreCall) (state : σ) :
    view ((tileStore cell hear call).onState state).2 = view state := by
  unfold tileStore
  rw [Run.onState_ofState]
  cases (cell.read state).answer call with
  | error error => rfl
  | ok outcome => exact (tell_unseen hhear _ _ _).trans (hwrite _ _)

/-! ## Brokers over a store and records -/

namespace Broker

open Resident (alone)

/-- Records that answer a call, in the states that are ready for it, as the records do that are seen of the state; nothing else
that is seen changes. -/
def Answers (ledger : RecordStore σ) (view : σ → Resident × Records) (ready : σ → Prop) (call : RecordCall) : Prop :=
  ∀ state : σ, ready state → ∃ after : σ, (ledger call).onState state = (.ok ((view state).2.answer call).1, after) ∧
    view after = ((view state).1, ((view state).2.answer call).2) ∧ ready after

/-- A run that, from the states that are ready for it, does to the store that is seen what another one does to the store alone;
nothing else that is seen changes. -/
def Mirrors (view : σ → Resident × Records) (ready : σ → Prop) (run : Run σ α) (plain : Run Resident α) : Prop :=
  ∀ state : σ, ready state → ∃ after : σ, run.onState state = ((plain.onState (view state).1).1, after) ∧
    view after = ((plain.onState (view state).1).2, (view state).2) ∧ ready after

/-- A broker over a resident store and records that are seen of a state. In the states that are ready for it, every call of the
store is answered as by the store alone, and a look-up of the records finds a record that has not expired. What else the
records make of calls is left open. -/
structure Over (broker : Broker σ) (ledger : RecordStore σ) (view : σ → Resident × Records) (ready : σ → Prop) : Prop where
  records : broker.records = some ledger
  store : ∀ call : StoreCall, Mirrors view ready (broker.store call) (alone call)
  look : ∀ key : TileKey, Answers ledger view ready (.get key)

/-- A tile with what is recorded of it. -/
def noted (request : Tile) (record : Record) : Tile := { request with size := record.size, created := record.created }

/-- A tile of which there is a record, but no payload. -/
def missing (request : Tile) (record : Record) : Served :=
  ⟨noted request record, .error (.storage s!"blob for {request.text} missing, metadata records {record.size} bytes")⟩

/-- A tile of which there is a record, and a payload of another length. -/
def mismatched (request : Tile) (record : Record) (payload : Payload) : Served :=
  ⟨request.fill payload,
    .error (.storage s!"blob for {request.text} is {payload.size} bytes, metadata records {record.size}")⟩

/-- What is served of a tile that has a record. -/
def servedAs (tiles : Std.ExtTreeMap TileKey Payload) (request : Tile) (record : Record) : Served :=
  if record.size = 0 then ⟨noted request record, .ok false⟩
  else match tiles[request.key]? with
    | none => missing request record
    | some payload =>
      if payload.size = record.size then ⟨request.fill payload, .ok true⟩ else mismatched request record payload

/-- What is served of a tile, by the tiles of a store and the records. -/
def servedOf (tiles : Std.ExtTreeMap TileKey Payload) (records : Records) (request : Tile) : Served :=
  match records.live request.key with
  | none => ⟨request, .ok false⟩
  | some record => servedAs tiles request record

variable {broker : Broker σ} {ledger : RecordStore σ} {view : σ → Resident × Records} {ready : σ → Prop} {state : σ}

/-- A tile of a store, as it is fetched. -/
theorem Over.fetch (h : broker.Over ledger view ready) (hready : ready state) (request : Tile) : ∃ after : σ,
    (Broker.fetch broker.store request).run state = (match (view state).1.tiles[request.key]? with
      | none => ⟨request, .ok false⟩
      | some payload => ⟨request.fill payload, .ok true⟩, after) ∧
    (view after).1.tiles = (view state).1.tiles ∧ (view after).2 = (view state).2 ∧ ready after := by
  obtain ⟨after, hrun, hview, hafter⟩ := h.store (.get request) state hready
  rw [Resident.onState_get] at hrun hview
  refine ⟨after, ?_, congrArg (·.1.tiles) hview, congrArg (·.2) hview, hafter⟩
  rw [Broker.fetch, Run.run_bind_answer hrun]
  cases (view state).1.tiles[request.key]? <;> rfl

/-- A tile that has a record, as it is fetched and checked. -/
theorem Over.fetchRecorded (h : broker.Over ledger view ready) (hready : ready state) (request : Tile) (record : Record) :
    ∃ after : σ,
      (Broker.fetchRecorded broker.store request record).run state = (servedAs (view state).1.tiles request record, after) ∧
        (view after).1.tiles = (view state).1.tiles ∧ (view after).2 = (view state).2 ∧ ready after := by
  unfold Broker.fetchRecorded servedAs
  by_cases hsize : record.size = 0
  · rw [if_pos hsize, if_pos hsize]
    exact ⟨state, rfl, rfl, rfl, hready⟩
  · obtain ⟨after, hfetch, hseen⟩ := h.fetch hready (noted request record)
    refine ⟨after, ?_, hseen⟩
    rw [if_neg hsize, if_neg hsize]
    change (Broker.fetch broker.store (noted request record) >>= _).run state = _
    rw [StateT.run_bind, hfetch, show (noted request record).key = request.key from rfl]
    cases (view state).1.tiles[request.key]? with
    | none => rfl
    | some payload =>
      by_cases hlength : payload.size = record.size
      · simp only [if_pos hlength]
        exact congrArg (StateT.run · after) (if_pos hlength)
      · simp only [if_neg hlength]
        exact congrArg (StateT.run · after) (if_neg hlength)

/-- A tile served: the store is read at most, and nothing else that is seen changes. -/
theorem Over.get (h : broker.Over ledger view ready) (hready : ready state) (request : Tile) : ∃ after : σ,
    (broker.get request).run state = (servedOf (view state).1.tiles (view state).2 request, after) ∧
      (view after).1.tiles = (view state).1.tiles ∧ (view after).2 = (view state).2 ∧ ready after := by
  obtain ⟨looked, hlook, hview, hlooked⟩ := h.look request.key state hready
  change (ledger (.get request.key)).onState state = (.ok ((view state).2.live request.key), looked) at hlook
  change view looked = view state at hview
  unfold Broker.get servedOf
  rw [h.records]
  dsimp only
  rw [Run.run_bind_answer hlook]
  cases (view state).2.live request.key with
  | none => exact ⟨looked, rfl, by rw [hview], by rw [hview], hlooked⟩
  | some record =>
    obtain ⟨after, hrun, hseen⟩ := h.fetchRecorded hlooked request record
    rw [hview] at hrun hseen
    exact ⟨after, hrun, hseen⟩

/-- A tile stored, of which nothing is recorded yet. -/
theorem Over.store_put (h : broker.Over ledger view ready) (hready : ready state) {tile : Tile} {payload : Payload}
    (hpayload : tile.payload? = some payload) : ∃ after : σ, (broker.store (.put tile)).onState state = (.ok (), after) ∧
      (view after).1.tiles = (view state).1.tiles.insert tile.key payload ∧ (view after).2 = (view state).2 ∧ ready after := by
  obtain ⟨after, hrun, hview, hafter⟩ := h.store (.put tile) state hready
  have hput := Resident.onState_put (view state).1 tile
  rw [hpayload] at hput
  rw [hput] at hrun hview
  exact ⟨after, hrun, congrArg (·.1.tiles) hview, congrArg (·.2) hview, hafter⟩

/-- Tiles dropped from the store. -/
theorem Mirrors.drop {run : Run σ Bool} {plain : Run Resident Bool} (h : Mirrors view ready run plain) (hready : ready state)
    {doomed : TileKey → Bool} {forgotten : String → Bool} (hdrops : Resident.Drops doomed forgotten plain) : ∃ after : σ,
    run.onState state = (.ok ((view state).1.tiles.keys.any doomed), after) ∧
      (∀ key : TileKey, (view after).1.tiles[key]? = if doomed key then none else (view state).1.tiles[key]?) ∧
      (view after).2 = (view state).2 ∧ ready after := by
  obtain ⟨after, hrun, hview, hafter⟩ := h state hready
  rw [hdrops.found] at hrun
  refine ⟨after, hrun, fun key => ?_, by rw [hview], hafter⟩
  rw [hview]
  exact hdrops.tiles (view state).1 key

/-- A tile without payload is refused before anything is done. -/
theorem onState_put_of_none (broker : Broker σ) {tile : Tile} (hpayload : tile.payload? = none) (state : σ) :
    (broker.put tile).onState state = (.error (.invalidArgument s!"{tile.text} has no blob"), state) := by
  have hblob : tile.blob.isNone = true := Option.isNone_iff_eq_none.mpr (Option.map_eq_none_iff.mp hpayload)
  rw [Broker.put, if_pos hblob]
  rfl

/-- A tile that has a payload is stored and recorded. -/
theorem Over.put_eq (h : broker.Over ledger view ready) {tile : Tile} {payload : Payload}
    (hpayload : tile.payload? = some payload) : broker.put tile = putRecorded broker.store ledger tile := by
  obtain ⟨blob, hblob, -⟩ := Option.map_eq_some_iff.mp hpayload
  unfold Broker.put
  rw [hblob, h.records]
  rfl

end Broker

/-! ## The broker of a depot -/

/-- A depot with one resident store and records. -/
def DepotPlan.recorded (name gate : String) : DepotPlan :=
  ⟨.resident name, some ⟨gate, [], false⟩, ⟨false, none, []⟩, .reliable⟩

namespace Depot

/-- The broker of a depot with one resident store and records. -/
def broker (name gate : String) : Broker Depot := (DepotPlan.recorded name gate).broker .whole DepotPlan.unheld

/-- The records of a depot, behind their gate. -/
def ledgerBehind (gate : String) : RecordStore Depot :=
  Records.behindGate (recordsGateCell.inside .whole) gate DepotPlan.unheld (Records.recordStore (recordsCell.inside .whole))

/-- The resident store of a depot and its records. -/
def brokerView (name : String) (depot : Depot) : Resident × Records := ((residentCell name).read depot, depot.records)

/-- A call of the records behind a gate notes the call, and is answered unless the gate refuses it. -/
theorem onState_ledgerBehind (gate : String) (call : RecordCall) (depot : Depot) :
    (ledgerBehind gate call).onState depot =
      let noted := { depot with recordsGate := depot.recordsGate.note call.verb }
      if depot.recordsGate.refused.contains call.verb then (.error (Gate.refusal gate call.verb), noted)
      else (.ok (depot.records.answer call).1, { noted with records := (depot.records.answer call).2 }) := by
  rw [ledgerBehind, Records.behindGate, Gate.onState_pass_unheld fun _ _ => rfl]
  rfl

/-- Events that are heard do not touch the records. -/
theorem records_hear (listener : Listener) (event : Event) (depot : Depot) :
    ((hear listener event depot).records, (hear listener event depot).recordsGate) = (depot.records, depot.recordsGate) := by
  cases listener with
  | scribe name => rfl
  | accountant =>
    unfold hear
    dsimp only
    split <;> rfl

/-- The records and their gate have no part in what a store does. -/
theorem records_store (name : String) (call : StoreCall) (depot : Depot) :
    let after := (((StoreTree.resident name).tileStore .whole DepotPlan.unheld call).onState depot).2
    (after.records, after.recordsGate) = (depot.records, depot.recordsGate) :=
  Resident.view_onState_tileStore (fun depot : Depot => (depot.records, depot.recordsGate)) records_hear (fun _ _ => rfl) call
    depot

/-- A gate that does not refuse a call hands it on to the records. -/
theorem answers_ledgerBehind (name gate : String) {refused : List String} {call : RecordCall}
    (hcall : refused.contains call.verb = false) :
    Broker.Answers (ledgerBehind gate) (brokerView name) (·.recordsGate.refused = refused) call := by
  intro depot hready
  refine ⟨{ depot with
    recordsGate := depot.recordsGate.note call.verb
    records := (depot.records.answer call).2 }, ?_, rfl, hready⟩
  rw [onState_ledgerBehind, hready]
  dsimp only
  rw [if_neg (by rw [hcall]; decide)]
  rfl

/-- A gate that refuses a call changes nothing that a broker sees. -/
theorem refuses_ledgerBehind (name gate : String) {refused : List String} {call : RecordCall} {depot : Depot}
    (hcall : refused.contains call.verb = true) (hready : depot.recordsGate.refused = refused) : ∃ failed : Depot,
    (ledgerBehind gate call).onState depot = (.error (Gate.refusal gate call.verb), failed) ∧
      brokerView name failed = brokerView name depot ∧ failed.recordsGate.refused = refused := by
  refine ⟨{ depot with recordsGate := depot.recordsGate.note call.verb }, ?_, rfl, hready⟩
  rw [onState_ledgerBehind, hready]
  exact if_pos hcall

/-- The broker of a depot is over its resident store and its records, while the gate does not refuse to look records up. -/
theorem broker_over (name gate : String) {refused : List String} (hget : refused.contains "get" = false) :
    (broker name gate).Over (ledgerBehind gate) (brokerView name) (·.recordsGate.refused = refused) where
  records := rfl
  store call depot hready := by
    have hseen := resident_projects name call depot
    have hkept := records_store name call depot
    refine ⟨(((StoreTree.resident name).tileStore .whole DepotPlan.unheld call).onState depot).2, ?_, ?_, ?_⟩
    · exact Prod.ext (congrArg Prod.fst hseen).symm rfl
    · exact Prod.ext (congrArg Prod.snd hseen).symm (congrArg Prod.fst hkept)
    · exact (congrArg (·.2.refused) hkept).trans hready
  look key := answers_ledgerBehind name gate hget

end Depot

end TileDepot
