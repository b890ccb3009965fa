import TileDepot.Proofs.Broker.LastPut

/-!
# Tiles lost behind the records

Tiles that leave the store while their records stay are lost: a get of such a tile, if it was served before, is an error from
then on. Two ways lead there. A put that cannot be recorded deletes what is stored of the tile, be it new or not; and tiles
that are deleted by gridset or by parameters keep their records.
-/

namespace TileDepot

namespace Sample

/-- The depot after some calls of its broker, with a gate that refuses to record anything from now on. -/
def unrecording (calls : List BrokerCall) : Depot := { brokered calls with recordsGate := .refusing ["put"] }

/-- The store and the records of a depot are consistent after any calls of its broker. -/
theorem consistent_brokered {calls : List BrokerCall} (hsized : ∀ call ∈ calls, call.Sized) :
    Broker.Consistent ((Depot.residentCell "tiles").read (brokered calls)).tiles (brokered calls).records := by
  have hempty : ((Depot.residentCell "tiles").read unfilled).tiles = ∅ := rfl
  exact (Depot.filled_serve "tiles" "meta" hempty rfl rfl hsized).1.consistent

end Sample

/-- The tiles of a layer that are deleted by gridset or by parameters. -/
inductive BulkDeletion where
  | gridset (layer gridset : String)
  | parameters (layer parameters : String)

/-- Whether a tile is among those that are deleted. -/
def BulkDeletion.dooms : BulkDeletion → TileKey → Bool
  | .gridset layer name, key => key.layer == layer && key.gridset == name
  | .parameters layer identifier, key => key.layer == layer && key.parameters == some identifier

namespace Broker

variable {σ : Type}

/-! ## Losses -/

/-- What a broker serves of some tiles, one after the other. -/
def servedIn (broker : Broker σ) (state : σ) (requests : List Tile) : List Served := ((requests.mapM broker.get).run state).1

/-- Some tiles got lost between two states: gets answer in the second one as in the first exactly if every lost tile that they
ask for was not found before either; and where one was served before, its store is reported to be damaged. -/
structure Loses (broker : Broker σ) (lost : TileKey → Bool) (state after : σ) : Prop where
  seen : ∀ requests : List Tile, broker.servedIn after requests = broker.servedIn state requests ↔
    ∀ request ∈ requests, lost request.key = true → ((broker.get request).run state).1.found = .ok false
  damaged : ∀ request : Tile, lost request.key = true → ((broker.get request).run state).1.found = .ok true →
    ((broker.get request).run after).1.found = .error (.storage
      s!"blob for {request.text} missing, metadata records {((broker.get request).run state).1.tile.size} bytes")

variable {tiles tiles' : Std.ExtTreeMap TileKey Payload} {records : Records} {request : Tile}

/-- What is served depends on no other tiles than the one that is asked for. -/
theorem servedOf_congr (h : tiles'[request.key]? = tiles[request.key]?) :
    servedOf tiles' records request = servedOf tiles records request := by
  unfold servedOf servedAs
  rw [h]

/-- A tile of a consistent store that is not found is not found either when it has left the store; one that is served is
missing then. -/
theorem servedOf_cases (h : Consistent tiles records) (hgone : tiles'[request.key]? = none) :
    ((servedOf tiles records request).found = .ok false ∧
        servedOf tiles' records request = servedOf tiles records request) ∨
      ∃ (payload : Payload) (record : Record), payload.size = record.size ∧
        servedOf tiles records request = ⟨request.fill payload, .ok true⟩ ∧
        servedOf tiles' records request = missing request record := by
  unfold servedOf
  cases hlive : records.live request.key with
  | none => exact Or.inl ⟨rfl, rfl⟩
  | some record =>
    dsimp only
    by_cases hsize : record.size = 0
    · rw [servedAs, servedAs, if_pos hsize, if_pos hsize]
      exact Or.inl ⟨rfl, rfl⟩
    · have hsame := h request.key
      rw [(Option.filter_eq_some_iff.mp hlive).1] at hsame
      obtain ⟨payload, hpayload, hlength⟩ := Option.map_eq_some_iff.mp hsame
      refine Or.inr ⟨payload, record, hlength, ?_, ?_⟩
      · rw [servedAs, if_neg hsize, hpayload]
        exact if_pos hlength
      · rw [servedAs, if_neg hsize, hgone]

variable {broker : Broker σ} {ledger : RecordStore σ} {view : σ → Resident × Records} {ready : σ → Prop} {state after : σ}

/-- Gets, one after the other, answer by the same tiles and records. -/
theorem Over.servedIn_eq (h : broker.Over ledger view ready) (hready : ready state) (requests : List Tile) :
    broker.servedIn state requests = requests.map (servedOf (view state).1.tiles (view state).2) := by
  induction requests generalizing state with
  | nil => rfl
  | cons request requests ih =>
    obtain ⟨looked, hrun, htiles, hrecords, hlooked⟩ := h.get hready request
    have hrest := ih hlooked
    rw [htiles, hrecords] at hrest
    unfold servedIn at hrest ⊢
    rw [List.mapM_cons, StateT.run_bind, hrun, List.map_cons, ← hrest]
    rfl

/-- Tiles that have left the store, but not the records, are lost. -/
theorem Over.loses (h : broker.Over ledger view ready) (hready : ready state) (hafter : ready after)
    (hconsistent : Consistent (view state).1.tiles (view state).2) {lost : TileKey → Bool}
    (htiles : ∀ key : TileKey, (view after).1.tiles[key]? = if lost key then none else (view state).1.tiles[key]?)
    (hrecords : (view after).2 = (view state).2) : broker.Loses lost state after := by
  have hgone : ∀ request : Tile, lost request.key = true → (view after).1.tiles[request.key]? = none :=
    fun request hlost => (htiles request.key).trans (if_pos hlost)
  have hget : ∀ (state : σ), ready state → ∀ request : Tile,
      ((broker.get request).run state).1 = servedOf (view state).1.tiles (view state).2 request := by
    intro state hready request
    obtain ⟨looked, hrun, -⟩ := h.get hready request
    exact congrArg Prod.fst hrun
  refine ⟨fun requests => ?_, fun request hlost hfound => ?_⟩
  · rw [h.servedIn_eq hready, h.servedIn_eq hafter, hrecords, List.map_inj_left]
    refine forall₂_congr fun request _ => ?_
    rw [hget state hready]
    cases hlost : lost request.key with
    | false => exact iff_of_true (servedOf_congr ((htiles request.key).trans (by rw [hlost]; rfl))) nofun
    | true =>
      rcases servedOf_cases hconsistent (hgone request hlost) with ⟨hfalse, hsame⟩ | ⟨payload, record, -, hserved, hmissing⟩
      · exact iff_of_true hsame fun _ => hfalse
      · rw [hserved, hmissing]
        exact iff_of_false (fun heq => nomatch congrArg Served.found heq) fun hfalse => nomatch hfalse rfl
  · rw [hget state hready] at hfound ⊢
    rw [hget after hafter, hrecords]
    rcases servedOf_cases hconsistent (hgone request hlost) with ⟨hfalse, -⟩ | ⟨payload, record, hlength, hserved, hmissing⟩
    · rw [hfalse] at hfound
      cases hfound
    · rw [hserved, hmissing, missing, ← hlength]
      rfl

/-! ## Puts that cannot be recorded -/

/-- A tile put where the records fail, which changes nothing that is seen: the put fails, and what was stored of the tile before
is lost with what was to be stored. -/
theorem failed_put_loses (h : broker.Over ledger view ready) (hready : ready state)
    (hconsistent : Consistent (view state).1.tiles (view state).2) {tile : Tile} (hblob : tile.blob.isSome = true) {error : Error}
    (hfails : ∀ stored : σ, (broker.store (.put tile)).onState state = (.ok (), stored) → ∃ failed : σ,
      (ledger (.put tile)).onState stored = (.error error, failed) ∧ view failed = view stored ∧ ready failed) :
    let put := (broker.put tile).onState state
    put.1 = .error error ∧ broker.Loses (fun key => key == tile.key) state put.2 := by
  intro put
  obtain ⟨payload, hpayload⟩ : ∃ payload : Payload, tile.payload? = some payload := by
    obtain ⟨blob, hblob⟩ := Option.isSome_iff_exists.mp hblob
    exact ⟨⟨blob, tile.created⟩, by rw [Tile.payload?, hblob]; rfl⟩
  obtain ⟨stored, hstore, htiles, hrecords, -⟩ := h.store_put hready hpayload
  obtain ⟨failed, hrecord, hview, hfailed⟩ := hfails stored hstore
  obtain ⟨after, hdelete, hgone, hkept, hafter⟩ :=
    (h.store (.delete tile.key)).drop hfailed (Resident.drops_delete tile.key)
  have hput : put = (.error error, after) := by
    change (broker.put tile).onState state = _
    rw [h.put_eq hpayload, putRecorded, Run.onState_bind_ok hstore, Run.onState_bind_ok (Run.onState_attempt _ _), hrecord]
    dsimp only
    rw [Run.onState_bind_ok (Run.onState_ignoringFailure _ _), hdelete]
    rfl
  rw [hput]
  refine ⟨rfl, h.loses hready hafter hconsistent (fun key => ?_) (by rw [hkept, hview, hrecords])⟩
  rw [hgone, hview, htiles, Table.getElem?_insert]
  by_cases hkey : key = tile.key
  · rw [if_pos (beq_iff_eq.mpr hkey), if_pos (beq_iff_eq.mpr hkey)]
  · rw [if_neg (mt beq_iff_eq.mp hkey), if_neg (mt beq_iff_eq.mp hkey), if_neg (Ne.symm hkey)]

/-- Of two tiles that are served, one cannot be recorded anew: it is lost, and the other is served as before. -/
theorem failed_put_loses_one_tile :
    let broker := Depot.broker "tiles" "meta"
    let depot := Sample.unrecording [.put (Sample.tile "roads" 1 2 5), .put (Sample.tile "roads" 3 4 6)]
    let put := (broker.put (Sample.tile "roads" 1 2 7)).onState depot
    depot.recordsGate.refused = ["put"] ∧ Consistent ((Depot.residentCell "tiles").read depot).tiles depot.records ∧
      put.1 = .error (Gate.refusal "meta" "put") ∧
      broker.servedIn put.2 [Sample.request "roads" 3 4] = broker.servedIn depot [Sample.request "roads" 3 4] ∧
      ((broker.get (Sample.request "roads" 1 2)).run put.2).1.found =
        .error (.storage "blob for TileObject[roads/world/png/default/3/1/2] missing, metadata records 5 bytes") := by
  intro broker depot put
  let tile := Sample.tile "roads" 1 2 7
  have hover : broker.Over (Depot.ledgerBehind "meta") (Depot.brokerView "tiles") (·.recordsGate.refused = ["put"]) :=
    Depot.broker_over "tiles" "meta" rfl
  have hready : depot.recordsGate.refused = ["put"] := rfl
  have hconsistent : Consistent ((Depot.residentCell "tiles").read depot).tiles depot.records := by
    refine Sample.consistent_brokered ?_
    simp only [List.forall_mem_cons]
    exact ⟨Sample.sized_put _ _ _ _, Sample.sized_put _ _ _ _, nofun⟩
  have hfails : ∀ stored : Depot, (broker.store (.put tile)).onState depot = (.ok (), stored) → ∃ failed : Depot,
      (Depot.ledgerBehind "meta" (.put tile)).onState stored = (.error (Gate.refusal "meta" "put"), failed) ∧
        Depot.brokerView "tiles" failed = Depot.brokerView "tiles" stored ∧ failed.recordsGate.refused = ["put"] := by
    intro stored hstored
    obtain rfl := congrArg Prod.snd hstored
    exact Depot.refuses_ledgerBehind "tiles" "meta" rfl
      (congrArg (·.2.refused) (Depot.records_store "tiles" (.put tile) depot))
  obtain ⟨hfailed, hloses⟩ : put.1 = .error (Gate.refusal "meta" "put") ∧
      broker.Loses (fun key => key == tile.key) depot put.2 := failed_put_loses hover hready hconsistent rfl hfails
  have hother : broker.servedIn put.2 [Sample.request "roads" 3 4] = broker.servedIn depot [Sample.request "roads" 3 4] := by
    refine (hloses.seen _).mpr (List.forall_mem_singleton.mpr fun hlost => ?_)
    cases hlost
  have hdamaged := hloses.damaged (Sample.request "roads" 1 2) (by decide) (by decide +kernel)
  exact ⟨hready, hconsistent, hfailed, hother, hdamaged.trans (by decide +kernel)⟩

/-- A tile that is stored already and cannot be recorded anew: the put fails, and the store is reported to be damaged from then
on. -/
theorem tile_lost_by_failed_put :
    let broker := Depot.broker "tiles" "meta"
    let depot := Sample.unrecording [.put (Sample.tile "roads" 1 2 5)]
    let put := (broker.put (Sample.tile "roads" 1 2 7)).onState depot
    let found (depot : Depot) := ((broker.get (Sample.request "roads" 1 2)).run depot).1.found
    put.1 = .error (Gate.refusal "meta" "put") ∧ found depot = .ok true ∧ found put.2 =
      .error (.storage "blob for TileObject[roads/world/png/default/3/1/2] missing, metadata records 5 bytes") := by
  decide +kernel

/-! ## Tiles deleted in bulk -/

/-- Tiles deleted by gridset or by parameters. -/
def deleteBulk (broker : Broker σ) : BulkDeletion → Run σ Bool
  | .gridset layer gridset => broker.deleteGridset layer gridset
  | .parameters layer parameters => broker.deleteParameters layer parameters

/-- A deletion in bulk drops the doomed tiles of the store, and leaves the records alone. -/
theorem Over.deleteBulk (h : broker.Over ledger view ready) (hready : ready state) (deletion : BulkDeletion) : ∃ after : σ,
    (broker.deleteBulk deletion).onState state = (.ok ((view state).1.tiles.keys.any deletion.dooms), after) ∧
      (∀ key : TileKey, (view after).1.tiles[key]? = if deletion.dooms key then none else (view state).1.tiles[key]?) ∧
      (view after).2 = (view state).2 ∧ ready after := by
  cases deletion with
  | gridset layer gridset =>
    exact (h.store (.deleteGridset layer gridset)).drop hready (Resident.drops_deleteGridset layer gridset)
  | parameters layer parameters =>
    exact (h.store (.deleteParameters layer parameters)).drop hready (Resident.drops_deleteParameters layer parameters)

end Broker

namespace Depot

/-- Tiles deleted by gridset or by parameters from the store of a depot: each of them is lost that was served before. -/
theorem bulk_deletion_loses (name gate : String) (depot : Depot) (hget : depot.recordsGate.refused.contains "get" = false)
    (hconsistent : Broker.Consistent ((residentCell name).read depot).tiles depot.records) (deletion : BulkDeletion) :
    let deleted := ((broker name gate).deleteBulk deletion).onState depot
    deleted.1 = .ok (((residentCell name).read depot).tiles.keys.any deletion.dooms) ∧
      (broker name gate).Loses deletion.dooms depot deleted.2 := by
  intro deleted
  have hover : (broker name gate).Over (ledgerBehind gate) (brokerView name)
      (·.recordsGate.refused = depot.recordsGate.refused) := broker_over name gate hget
  obtain ⟨after, hrun, htiles, hrecords, hafter⟩ := hover.deleteBulk rfl deletion
  rw [show deleted = (_, after) from hrun]
  exact ⟨rfl, hover.loses rfl hafter hconsistent htiles hrecords⟩

/-- Of two layers one is deleted by gridset. It had two tiles: the one whose record had expired is not found before and after,
the other one is lost. -/
theorem bulk_deletion_loses_one_layer :
    let depot := Sample.brokered [.put (Sample.tile "roads" 1 2 5), .put (Sample.tile "streets" 1 2 6),
      .expire (.of "streets" "world" "png" none 3 3 []), .put (Sample.tile "streets" 3 4 7)]
    let requests := [Sample.request "roads" 1 2, Sample.request "streets" 1 2]
    let deleted := ((broker "tiles" "meta").deleteBulk (.gridset "streets" "world")).onState depot
    Broker.Consistent ((residentCell "tiles").read depot).tiles depot.records ∧ deleted.1 = .ok true ∧
      (broker "tiles" "meta").servedIn deleted.2 requests = (broker "tiles" "meta").servedIn depot requests ∧
      (((broker "tiles" "meta").get (Sample.request "streets" 3 4)).run deleted.2).1.found =
        .error (.storage "blob for TileObject[streets/world/png/default/3/3/4] missing, metadata records 7 bytes") := by
  intro depot requests deleted
  have hconsistent : Broker.Consistent ((residentCell "tiles").read depot).tiles depot.records := by
    refine Sample.consistent_brokered ?_
    simp only [List.forall_mem_cons]
    exact ⟨Sample.sized_put _ _ _ _, Sample.sized_put _ _ _ _, trivial, Sample.sized_put _ _ _ _, nofun⟩
  obtain ⟨-, hloses⟩ := bulk_deletion_loses "tiles" "meta" depot (by decide +kernel) hconsistent (.gridset "streets" "world")
  have hothers : (broker "tiles" "meta").servedIn deleted.2 requests = (broker "tiles" "meta").servedIn depot requests := by
    refine (hloses.seen requests).mpr fun request hrequest hlost => ?_
    rcases List.mem_pair.mp hrequest with rfl | rfl
    · cases hlost
    · decide +kernel
  have hdamaged := hloses.damaged (Sample.request "streets" 3 4) (by decide) (by decide +kernel)
  exact ⟨hconsistent, by decide +kernel, hothers, hdamaged.trans (by decide +kernel)⟩

/-- Two tiles that are served until they are deleted, one by its gridset and one by its parameters; then their store is reported
to be damaged. -/
theorem tiles_lost_by_bulk_deletion :
    let night (tile : Tile) : Tile := { tile with parametersId := some "night" }
    let depot := Sample.brokered [.put (Sample.tile "roads" 1 2 5), .put (night (Sample.tile "streets" 1 2 5))]
    let served := broker "tiles" "meta"
    let found (request : Tile) (depot : Depot) := ((served.get request).run depot).1.found
    let byGridset := (served.deleteGridset "roads" "world").onState depot
    let byParameters := (served.deleteParameters "streets" "night").onState depot
    (byGridset.1 = .ok true ∧ found (Sample.request "roads" 1 2) depot = .ok true ∧
      found (Sample.request "roads" 1 2) byGridset.2 =
        .error (.storage "blob for TileObject[roads/world/png/default/3/1/2] missing, metadata records 5 bytes")) ∧
    (byParameters.1 = .ok true ∧ found (night (Sample.request "streets" 1 2)) depot = .ok true ∧
      found (night (Sample.request "streets" 1 2)) byParameters.2 =
        .error (.storage "blob for TileObject[streets/world/png/night/3/1/2] missing, metadata records 5 bytes")) := by
  decide +kernel

end Depot

end TileDepot
