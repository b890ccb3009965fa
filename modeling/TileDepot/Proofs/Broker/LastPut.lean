import Mathlib.Data.List.Induction
import TileDepot.Proofs.Broker.Serving
import TileDepot.Proofs.Depot.Requests

/-!
# What was put last is served

A broker over a store and records, both empty at first, keeps the two in step: the same tiles are stored and recorded, with the
same sizes. What it serves of a tile is what was put of it last, unless that was empty, or something that came later deleted the
tile or let its record expire.
-/

namespace TileDepot

/-- What a broker is asked for, one after the other. -/
inductive BrokerCall where
  | get (request : Tile)
  | put (tile : Tile)
  | delete (key : TileKey)
  | deleteRange (range : TileRange)
  | deleteLayer (layer : String)
  | expire (range : TileRange)

namespace BrokerCall

/-- What a call puts of a tile. -/
def puts : BrokerCall → TileKey → Option Payload
  | .put tile, key => if tile.key = key then tile.payload? else none
  | _, _ => none

/-- Whether a call deletes a tile, or lets its record expire. -/
def withdraws : BrokerCall → TileKey → Bool
  | .delete doomed, key => key == doomed
  | .deleteRange range, key | .expire range, key => range.contains key
  | .deleteLayer layer, key => key.layer == layer
  | _, _ => false

/-- A call that carries the size of the payload that it puts, if it puts one. -/
def Sized : BrokerCall → Prop
  | .put tile => ∀ payload : Payload, tile.payload? = some payload → tile.size = payload.size
  | _ => True

/-- What some calls have put of a tile last, where no later one withdrew it. -/
def Stands (calls : List BrokerCall) (key : TileKey) (payload : Payload) : Prop :=
  ∃ (before after : List BrokerCall) (call : BrokerCall), calls = before ++ call :: after ∧ call.puts key = some payload ∧
    ∀ later ∈ after, later.puts key = none ∧ later.withdraws key = false

variable {calls : List BrokerCall} {call : BrokerCall} {key : TileKey} {payload : Payload}

/-- Before any call no tile stands. -/
theorem not_stands_nil (key : TileKey) (payload : Payload) : ¬ Stands [] key payload := by
  rintro ⟨before, after, call, hcalls, -⟩
  cases before <;> cases hcalls

/-- What stands after one more call: what the call puts, or what stood before it, where the call leaves that alone. -/
theorem stands_concat : Stands (calls ++ [call]) key payload ↔
    call.puts key = some payload ∨ call.puts key = none ∧ call.withdraws key = false ∧ Stands calls key payload := by
  constructor
  · rintro ⟨before, after, made, hcalls, hputs, hlater⟩
    rcases List.eq_nil_or_concat after with rfl | ⟨after, last, rfl⟩
    · obtain ⟨-, hlast⟩ := List.append_inj' hcalls rfl
      obtain rfl := List.singleton_inj.mp hlast
      exact Or.inl hputs
    · rw [List.concat_eq_append] at hcalls hlater
      rw [show before ++ made :: (after ++ [last]) = (before ++ made :: after) ++ [last] by simp] at hcalls
      obtain ⟨rfl, hlast⟩ := List.append_inj' hcalls rfl
      obtain rfl := List.singleton_inj.mp hlast
      obtain ⟨hnone, hkept⟩ := hlater call (by simp)
      exact Or.inr ⟨hnone, hkept, before, after, made, rfl, hputs, fun later hmem => hlater later (by simp [hmem])⟩
  · rintro (hputs | ⟨hnone, hkept, before, after, made, rfl, hputs, hlater⟩)
    · exact ⟨calls, [], call, rfl, hputs, fun _ hmem => nomatch hmem⟩
    · refine ⟨before, after ++ [call], made, by simp, hputs, fun later hmem => ?_⟩
      rcases List.mem_append.mp hmem with hmem | hmem
      · exact hlater later hmem
      · obtain rfl := List.mem_singleton.mp hmem
        exact ⟨hnone, hkept⟩

/-- What stands, worked out call by call. -/
def standing (calls : List BrokerCall) (key : TileKey) : Option Payload :=
  calls.foldl (fun standing call => (call.puts key).or (if call.withdraws key then none else standing)) none

/-- The payload that stands is found by going through the calls. -/
theorem stands_iff_standing : Stands calls key payload ↔ standing calls key = some payload := by
  induction calls using List.reverseRecOn with
  | nil => exact iff_of_false (not_stands_nil key payload) nofun
  | append_singleton calls call ih =>
    have hconcat : standing (calls ++ [call]) key =
        (call.puts key).or (if call.withdraws key then none else standing calls key) := by
      rw [standing, List.foldl_append]
      rfl
    rw [stands_concat, ih, hconcat]
    cases call.puts key <;> cases call.withdraws key <;> simp

end BrokerCall

/-! ## Records, key by key -/

namespace Records

/-- A record is made of the tile that is put, and no other record changes. -/
theorem getElem?_put (records : Records) (tile : Tile) (key : TileKey) : (records.put tile).byTile[key]? =
    if tile.key = key then some ⟨tile.size, tile.created, false⟩ else records.byTile[key]? :=
  Table.getElem?_insert records.byTile tile.key key _

/-- The records that are dropped are gone, and the others stay what they are. -/
theorem getElem?_drop (records : Records) (doomed : TileKey → Bool) (key : TileKey) :
    (records.drop doomed).2.byTile[key]? = if doomed key then none else records.byTile[key]? :=
  Resident.getElem?_filter_not records.byTile doomed key

/-- The records in a range expire, and the others stay what they are. -/
theorem getElem?_expire (records : Records) (range : TileRange) (key : TileKey) :
    (records.expire range).2.byTile[key]? = records.byTile[key]?.map fun record =>
      if range.contains key then { record with expired := true } else record := by
  change (records.byTile.map _)[key]? = _
  exact Std.ExtTreeMap.getElem?_map

/-- One record is erased, and the others stay what they are. -/
theorem getElem?_erase (records : Records) (doomed key : TileKey) :
    (records.answer (.delete doomed)).2.byTile[key]? = if key == doomed then none else records.byTile[key]? :=
  (Table.getElem?_erase records.byTile doomed key).trans (if_congr (eq_comm.trans beq_iff_eq.symm) rfl rfl)

end Records

namespace Broker

open BrokerCall (Stands)

/-- A store and records that hold the same tiles, with the same sizes. -/
def Consistent (tiles : Std.ExtTreeMap TileKey Payload) (records : Records) : Prop :=
  ∀ key : TileKey, tiles[key]?.map Payload.size = records.byTile[key]?.map Record.size

/-- A store and records that some calls have filled: the same tiles are stored and recorded, with the same sizes and times; and
those whose records have not expired are those that stand. -/
structure Filled (calls : List BrokerCall) (tiles : Std.ExtTreeMap TileKey Payload) (records : Records) : Prop where
  recorded : ∀ key : TileKey, (tiles[key]?.map fun payload => (payload.size, payload.created)) =
    records.byTile[key]?.map fun record => (record.size, record.created)
  stands : ∀ (key : TileKey) (payload : Payload),
    (tiles[key]? = some payload ∧ (records.live key).isSome = true) ↔ Stands calls key payload

variable {calls : List BrokerCall} {call : BrokerCall} {tiles tiles' : Std.ExtTreeMap TileKey Payload}
  {records records' : Records}

/-- Tiles and records that are filled by calls agree with each other. -/
theorem Filled.consistent (h : Filled calls tiles records) : Consistent tiles records := by
  intro key
  have hrecorded := congrArg (Option.map Prod.fst) (h.recorded key)
  rw [Option.map_map, Option.map_map] at hrecorded
  exact hrecorded

/-- Empty tiles and records are filled by no calls. -/
theorem filled_nil : Filled [] ∅ .empty := by
  refine ⟨fun key => by simp [Records.empty], fun key payload => ?_⟩
  exact iff_of_false (fun h => by simp at h) (BrokerCall.not_stands_nil key payload)

/-- A tile put and recorded with the size of its payload. -/
theorem Filled.put (h : Filled calls tiles records) {tile : Tile} {payload : Payload} (hpayload : tile.payload? = some payload)
    (hsize : tile.size = payload.size) :
    Filled (calls ++ [.put tile]) (tiles.insert tile.key payload) (records.put tile) := by
  have hcreated : payload.created = tile.created := by
    obtain ⟨blob, -, rfl⟩ := Option.map_eq_some_iff.mp hpayload
    rfl
  refine ⟨fun key => ?_, fun key stored => ?_⟩
  · rw [Table.getElem?_insert, Records.getElem?_put]
    split
    · rw [Option.map_some, Option.map_some, hsize, hcreated]
    · exact h.recorded key
  · rw [BrokerCall.stands_concat, Table.getElem?_insert, Records.live, Records.getElem?_put]
    by_cases hkey : tile.key = key
    · simp [BrokerCall.puts, hkey, hpayload]
    · simp only [if_neg hkey, BrokerCall.puts, BrokerCall.withdraws, true_and]
      exact (h.stands key stored).trans (by simp)

/-- A call that puts nothing, and drops the tiles that it withdraws with their records. -/
theorem Filled.drop (h : Filled calls tiles records) (hputs : ∀ key : TileKey, call.puts key = none)
    (htiles : ∀ key : TileKey, tiles'[key]? = if call.withdraws key then none else tiles[key]?)
    (hrecords : ∀ key : TileKey, records'.byTile[key]? = if call.withdraws key then none else records.byTile[key]?) :
    Filled (calls ++ [call]) tiles' records' := by
  refine ⟨fun key => ?_, fun key payload => ?_⟩
  · rw [htiles, hrecords]
    split
    · rfl
    · exact h.recorded key
  · rw [BrokerCall.stands_concat, hputs, Records.live, htiles, hrecords, ← h.stands key payload]
    cases hwithdraws : call.withdraws key
    · simp [Records.live]
    · simp

/-- A range whose records have expired: no tile is dropped, but those of the range stand no more. -/
theorem Filled.expire (h : Filled calls tiles records) (range : TileRange) :
    Filled (calls ++ [.expire range]) tiles (records.expire range).2 := by
  refine ⟨fun key => ?_, fun key payload => ?_⟩
  · rw [h.recorded, Records.getElem?_expire, Option.map_map]
    refine congrArg (Option.map · _) (funext fun record => ?_)
    change _ = ((if _ then _ else _ : Record).size, (if _ then _ else _ : Record).created)
    split <;> rfl
  · rw [BrokerCall.stands_concat, ← h.stands key payload, Records.live, Records.live, Records.getElem?_expire]
    simp only [BrokerCall.puts, BrokerCall.withdraws]
    cases hcontains : range.contains key
    · simp
    · cases records.byTile[key]? <;> simp

/-- A call that neither puts nor withdraws anything. -/
theorem Filled.idle (h : Filled calls tiles records) (hputs : ∀ key : TileKey, call.puts key = none)
    (hwithdraws : ∀ key : TileKey, call.withdraws key = false) : Filled (calls ++ [call]) tiles records :=
  h.drop hputs (fun key => (if_neg (Bool.eq_false_iff.mp (hwithdraws key))).symm)
    fun key => (if_neg (Bool.eq_false_iff.mp (hwithdraws key))).symm

/-- What is served of a tile: what stands of it, unless that is empty. -/
theorem Filled.served (h : Filled calls tiles records) (request : Tile) :
    (∀ payload : Payload, Stands calls request.key payload → payload.size ≠ 0 →
        servedOf tiles records request = ⟨request.fill payload, .ok true⟩) ∧
      ((∀ payload : Payload, Stands calls request.key payload → payload.size = 0) →
        (servedOf tiles records request).found = .ok false) := by
  have hsizes : ∀ (payload : Payload) (record : Record), tiles[request.key]? = some payload →
      records.live request.key = some record → payload.size = record.size := by
    intro payload record hpayload hlive
    have hsame := h.consistent request.key
    rw [hpayload, (Option.filter_eq_some_iff.mp hlive).1] at hsame
    exact Option.some.inj hsame
  constructor
  · intro payload hstands hsize
    obtain ⟨hpayload, hlive⟩ := (h.stands request.key payload).mpr hstands
    obtain ⟨record, hlive⟩ := Option.isSome_iff_exists.mp hlive
    have hlength := hsizes payload record hpayload hlive
    rw [servedOf, hlive]
    dsimp only
    rw [servedAs, if_neg (hlength ▸ hsize), hpayload]
    exact if_pos hlength
  · intro hempty
    unfold servedOf
    cases hlive : records.live request.key with
    | none => rfl
    | some record =>
      -- A record that has not expired has a payload, which stands, and is empty therefore.
      have hsame := h.consistent request.key
      rw [(Option.filter_eq_some_iff.mp hlive).1] at hsame
      obtain ⟨payload, hpayload, -⟩ := Option.map_eq_some_iff.mp hsame
      have hzero := hempty payload ((h.stands request.key payload).mp ⟨hpayload, by rw [hlive]; rfl⟩)
      dsimp only
      rw [servedAs, if_pos ((hsizes payload record hpayload hlive).symm.trans hzero)]

/-! ## Many calls -/

variable {σ : Type}

/-- The state after a call. -/
def perform (broker : Broker σ) (state : σ) : BrokerCall → σ
  | .get request => ((broker.get request).run state).2
  | .put tile => ((broker.put tile).onState state).2
  | .delete key => ((broker.delete key).onState state).2
  | .deleteRange range => ((broker.deleteRange range).onState state).2
  | .deleteLayer layer => ((broker.deleteLayer layer).onState state).2
  | .expire range => ((broker.expire range).onState state).2

/-- The state after some calls, one after the other. -/
def serve (broker : Broker σ) (calls : List BrokerCall) (state : σ) : σ := calls.foldl broker.perform state

variable {broker : Broker σ} {ledger : RecordStore σ} {view : σ → Resident × Records} {ready : σ → Prop} {state : σ}

/-- A tile taken in by a store and records that do not fail. -/
theorem Over.put (h : broker.Over ledger view ready) (hledger : ∀ call : RecordCall, Answers ledger view ready call)
    (hready : ready state) {tile : Tile} {payload : Payload} (hpayload : tile.payload? = some payload) : ∃ after : σ,
    (broker.put tile).onState state = (.ok true, after) ∧
      (view after).1.tiles = (view state).1.tiles.insert tile.key payload ∧ (view after).2 = (view state).2.put tile ∧
      ready after := by
  obtain ⟨stored, hstore, htiles, hrecords, hstored⟩ := h.store_put hready hpayload
  obtain ⟨after, hrecord, hview, hafter⟩ := hledger (.put tile) stored hstored
  refine ⟨after, ?_, (congrArg (·.1.tiles) hview).trans htiles, ?_, hafter⟩
  · rw [h.put_eq hpayload, putRecorded, Run.onState_bind_ok hstore, Run.onState_bind_ok (Run.onState_attempt _ _), hrecord]
    rfl
  · rw [hview, hrecords]
    rfl

/-- Tiles deleted with their records. -/
theorem Over.both (h : broker.Over ledger view ready) (ask : RecordStore σ → Run σ Bool) {found : Bool} {records : Records}
    (hask : ∃ asked : σ, (ask ledger).onState state = (.ok found, asked) ∧ view asked = ((view state).1, records) ∧ ready asked)
    {askStore : Run σ Bool} {askAlone : Run Resident Bool} (hstore : Mirrors view ready askStore askAlone)
    {doomed : TileKey → Bool} {forgotten : String → Bool} (hdrops : Resident.Drops doomed forgotten askAlone) : ∃ after : σ,
    (broker.both ask askStore).onState state = (.ok (found || (view state).1.tiles.keys.any doomed), after) ∧
      (∀ key : TileKey, (view after).1.tiles[key]? = if doomed key then none else (view state).1.tiles[key]?) ∧
      (view after).2 = records ∧ ready after := by
  obtain ⟨asked, hanswer, hview, hasked⟩ := hask
  obtain ⟨after, hrun, htiles, hrecords, hafter⟩ := hstore.drop hasked hdrops
  rw [hview] at hrun htiles hrecords
  refine ⟨after, ?_, htiles, hrecords, hafter⟩
  unfold Broker.both
  rw [h.records, Run.onState_bind_ok hanswer, Run.onState_bind_ok hrun]
  rfl

/-- A call that deletes tiles with their records keeps the two as the calls have filled them. -/
theorem Over.filled_both (h : broker.Over ledger view ready) (hfilled : Filled calls (view state).1.tiles (view state).2)
    (hputs : ∀ key : TileKey, call.puts key = none) (ask : RecordStore σ → Run σ Bool) {found : Bool}
    (hask : ∃ asked : σ, (ask ledger).onState state = (.ok found, asked) ∧ view asked = ((view state).1, records) ∧ ready asked)
    {askStore : Run σ Bool} {askAlone : Run Resident Bool} (hstore : Mirrors view ready askStore askAlone)
    {forgotten : String → Bool} (hdrops : Resident.Drops call.withdraws forgotten askAlone)
    (hrecords : ∀ key : TileKey, records.byTile[key]? = if call.withdraws key then none else (view state).2.byTile[key]?) :
    let after := ((broker.both ask askStore).onState state).2
    Filled (calls ++ [call]) (view after).1.tiles (view after).2 ∧ ready after := by
  obtain ⟨after, hrun, htiles, hkept, hafter⟩ := h.both ask hask hstore hdrops
  rw [hrun]
  exact ⟨hfilled.drop hputs htiles (hkept ▸ hrecords), hafter⟩

/-- Every call keeps the store and the records as the calls have filled them. -/
theorem Over.filled_perform (h : broker.Over ledger view ready) (hledger : ∀ call : RecordCall, Answers ledger view ready call)
    (hready : ready state) (hfilled : Filled calls (view state).1.tiles (view state).2) (hsized : call.Sized) :
    Filled (calls ++ [call]) (view (broker.perform state call)).1.tiles (view (broker.perform state call)).2 ∧
      ready (broker.perform state call) := by
  cases call with
  | get request =>
    obtain ⟨after, hrun, htiles, hrecords, hafter⟩ := h.get hready request
    rw [perform, hrun]
    dsimp only
    rw [htiles, hrecords]
    exact ⟨hfilled.idle (fun _ => rfl) fun _ => rfl, hafter⟩
  | put tile =>
    cases hpayload : tile.payload? with
    | none =>
      rw [perform, broker.onState_put_of_none hpayload]
      have hnothing : ∀ key : TileKey, (BrokerCall.put tile).puts key = none := by
        intro key
        rw [BrokerCall.puts, hpayload, ite_self]
      exact ⟨hfilled.idle hnothing fun _ => rfl, hready⟩
    | some payload =>
      obtain ⟨after, hrun, htiles, hrecords, hafter⟩ := h.put hledger hready hpayload
      rw [perform, hrun]
      dsimp only
      rw [htiles, hrecords]
      exact ⟨hfilled.put hpayload (hsized payload hpayload), hafter⟩
  | delete key =>
    exact h.filled_both hfilled (fun _ => rfl) (fun records => records (.delete key)) (hledger (.delete key) state hready)
      (h.store (.delete key)) (Resident.drops_delete key) (Records.getElem?_erase _ key)
  | deleteRange range =>
    exact h.filled_both hfilled (fun _ => rfl) (fun records => records (.deleteRange range))
      (hledger (.deleteRange range) state hready) (h.store (.deleteRange range)) (Resident.drops_deleteRange range)
      (Records.getElem?_drop _ range.contains)
  | deleteLayer layer =>
    exact h.filled_both hfilled (fun _ => rfl) (fun records => records (.deleteLayer layer))
      (hledger (.deleteLayer layer) state hready) (h.store (.deleteLayer layer)) (Resident.drops_deleteLayer layer)
      (Records.getElem?_drop _ (·.layer == layer))
  | expire range =>
    obtain ⟨after, hrun, hview, hafter⟩ := hledger (.expire range) state hready
    have hexpire : (broker.expire range).onState state = (.ok ((view state).2.expire range).1, after) := by
      unfold Broker.expire
      rw [h.records]
      exact hrun
    rw [perform, hexpire]
    dsimp only
    rw [hview]
    exact ⟨hfilled.expire range, hafter⟩

/-- Many calls fill a store and records that were empty at first. -/
theorem Over.filled_serve (h : broker.Over ledger view ready) (hledger : ∀ call : RecordCall, Answers ledger view ready call)
    (hready : ready state) (htiles : (view state).1.tiles = ∅) (hrecords : (view state).2 = .empty) (calls : List BrokerCall)
    (hsized : ∀ call ∈ calls, call.Sized) :
    Filled calls (view (broker.serve calls state)).1.tiles (view (broker.serve calls state)).2 ∧
      ready (broker.serve calls state) := by
  induction calls using List.reverseRecOn with
  | nil =>
    change Filled [] (view state).1.tiles (view state).2 ∧ ready state
    rw [htiles, hrecords]
    exact ⟨filled_nil, hready⟩
  | append_singleton calls call ih =>
    obtain ⟨hfilled, hserved⟩ := ih fun other hother => hsized other (List.mem_append_left _ hother)
    rw [serve, List.foldl_append]
    exact h.filled_perform hledger hserved hfilled (hsized call (by simp))

end Broker

namespace Sample

/-- A depot with one store and its records, both empty. -/
def unfilled : Depot := (DepotPlan.recorded "tiles" "meta").opened (.atMinutes 5) table none

/-- The depot after some calls of its broker. -/
def brokered (calls : List BrokerCall) : Depot := (Depot.broker "tiles" "meta").serve calls unfilled

/-- A sample tile states its size as it is. -/
theorem sized_put (layer : String) (x y : Int) (bytes : Nat) : (BrokerCall.put (tile layer x y bytes)).Sized := by
  rintro payload ⟨⟩
  exact Array.size_replicate.symm

end Sample

namespace Depot

/-- The broker of a depot fills its store and its records. -/
theorem filled_serve (name gate : String) {depot : Depot} (htiles : ((residentCell name).read depot).tiles = ∅)
    (hrecords : depot.records = .empty) (hopen : depot.recordsGate.refused = []) {calls : List BrokerCall}
    (hsized : ∀ call ∈ calls, call.Sized) :
    let after := (broker name gate).serve calls depot
    Broker.Filled calls ((residentCell name).read after).tiles after.records ∧ after.recordsGate.refused = [] := by
  have hover : (broker name gate).Over (ledgerBehind gate) (brokerView name) (·.recordsGate.refused = []) :=
    broker_over name gate rfl
  exact hover.filled_serve (fun call => answers_ledgerBehind name gate rfl) hopen htiles hrecords calls hsized

/-- After any calls of a broker over a store and records that were empty at first, where every tile that was put carried its
size: (1) the same tiles are stored and recorded, with the same sizes; (2) what was put of a tile last is served, if nothing
that came later withdrew it, and if it is not empty; and (3) any other tile is just not found. -/
theorem last_put_served (name gate : String) (depot : Depot) (htiles : ((residentCell name).read depot).tiles = ∅)
    (hrecords : depot.records = .empty) (hopen : depot.recordsGate.refused = []) (calls : List BrokerCall)
    (hsized : ∀ call ∈ calls, call.Sized) :
    let after := (broker name gate).serve calls depot
    (∀ key : TileKey,
        ((residentCell name).read after).tiles[key]?.map Payload.size = after.records.byTile[key]?.map Record.size) ∧
      ∀ request : Tile,
        let served := (((broker name gate).get request).run after).1
        (∀ payload : Payload, BrokerCall.Stands calls request.key payload → payload.size ≠ 0 →
          served = ⟨request.fill payload, .ok true⟩) ∧
        ((∀ payload : Payload, BrokerCall.Stands calls request.key payload → payload.size = 0) → served.found = .ok false) := by
  intro after
  obtain ⟨hfilled, hready⟩ := filled_serve name gate htiles hrecords hopen hsized
  refine ⟨hfilled.consistent, fun request => ?_⟩
  intro served
  have hover : (broker name gate).Over (ledgerBehind gate) (brokerView name) (·.recordsGate.refused = []) :=
    broker_over name gate rfl
  obtain ⟨looked, hrun, -⟩ := hover.get hready request
  rw [show served = _ from congrArg Prod.fst hrun]
  exact hfilled.served request

/-- Two tiles whose records have expired: the one that is put again is served, the other is not found, and neither is a third one
that is put without a byte. -/
theorem last_put_served_after_expiry :
    let calls := [.put (Sample.tile "roads" 1 2 5), .put (Sample.tile "roads" 3 4 5),
      .expire (.of "roads" "world" "png" none 3 3 []), .put (Sample.tile "roads" 1 2 7), .put (Sample.tile "roads" 5 6 0)]
    let served (request : Tile) := (((broker "tiles" "meta").get request).run (Sample.brokered calls)).1
    (∀ call ∈ calls, call.Sized) ∧
      served (Sample.request "roads" 1 2) = ⟨(Sample.request "roads" 1 2).fill ⟨⟨Array.replicate 7 0⟩, 0⟩, .ok true⟩ ∧
      (served (Sample.request "roads" 3 4)).found = .ok false ∧ (served (Sample.request "roads" 5 6)).found = .ok false := by
  intro calls served
  have hsized : ∀ call ∈ calls, call.Sized := by
    simp only [calls, List.forall_mem_cons]
    exact ⟨Sample.sized_put _ _ _ _, Sample.sized_put _ _ _ _, trivial, Sample.sized_put _ _ _ _, Sample.sized_put _ _ _ _, nofun⟩
  have hserved := (last_put_served "tiles" "meta" Sample.unfilled rfl rfl rfl calls hsized).2
  refine ⟨hsized, (hserved _).1 _ (BrokerCall.stands_iff_standing.mpr rfl) (by decide), (hserved _).2 ?_, (hserved _).2 ?_⟩
  · intro payload hstands
    have hnone : (BrokerCall.standing calls (Sample.request "roads" 3 4).key).isNone = true := by decide +kernel
    rw [BrokerCall.stands_iff_standing.mp hstands] at hnone
    cases hnone
  · intro payload hstands
    have hempty : (BrokerCall.standing calls (Sample.request "roads" 5 6).key).map Payload.size = some 0 := by decide +kernel
    rw [BrokerCall.stands_iff_standing.mp hstands] at hempty
    exact Option.some.inj hempty

end Depot

end TileDepot
