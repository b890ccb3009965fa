import TileDepot.Proofs.Broker.Losses
import TileDepot.Proofs.Store.Renaming

/-!
# Layers renamed by a broker

A broker moves the records of a layer first, whatever there is of the other layer, and then asks the store, which refuses if the
other layer exists. Where the store agrees, every tile is served under the new name as it was under the old one. Where it refuses,
the records have moved without the tiles, and nothing moves them back.
-/

namespace TileDepot

variable {layer target : String}

/-! ## Records and tiles that have moved -/

namespace Records

/-- The records of a layer. -/
def ofLayer (records : Records) (layer : String) : List (TileKey × Record) :=
  (records.byTile.filter fun key _ => key.layer == layer).toList

/-- The records of a layer are those whose tile is in it. -/
theorem mem_ofLayer {records : Records} {item : TileKey × Record} :
    item ∈ records.ofLayer layer ↔ records.byTile[item.1]? = some item.2 ∧ item.1.layer = layer := by
  rw [ofLayer, Table.mem_toList, Std.ExtTreeMap.getElem?_filter', Option.filter_eq_some_iff, beq_iff_eq]

/-- To rename a layer moves its records, each to its tile in the other layer. -/
theorem byTile_rename (records : Records) (layer target : String) : (records.rename layer target).2.byTile =
    Table.relocate (fun item => item.1.renamed target) id records.byTile (records.ofLayer layer) :=
  Std.ExtTreeMap.foldl_eq_foldl_toList

/-- Records moved to where they are. -/
theorem rename_self (records : Records) (layer : String) : (records.rename layer layer).2 = records := by
  refine congrArg Records.mk ((byTile_rename records layer layer).trans (Table.relocate_self _ _ _ fun item hitem => ?_))
  obtain ⟨hrecord, hlayer⟩ := mem_ofLayer.mp hitem
  exact ⟨hlayer ▸ rfl, rfl, hrecord⟩

/-- The records of a layer go to different places in another one. -/
theorem nodup_ofLayer_renamed (records : Records) (layer target : String) :
    ((records.ofLayer layer).map fun item => item.1.renamed target).Nodup := by
  refine List.Nodup.map_on (fun item hitem other hother heq => ?_) (Table.nodup_toList _)
  obtain ⟨hrecord, hlayer⟩ := mem_ofLayer.mp hitem
  obtain ⟨hrecord', hlayer'⟩ := mem_ofLayer.mp hother
  have hkey := TileKey.eq_of_renamed_eq (hlayer.trans hlayer'.symm) heq
  rw [hkey] at hrecord
  exact Prod.ext hkey (Option.some.inj (hrecord.symm.trans hrecord'))

/-- A record that is moved takes the place of one that is there. -/
theorem getElem?_rename (records : Records) (hne : layer ≠ target) (key : TileKey) :
    (records.rename layer target).2.byTile[key]? =
      if key.layer = target then (records.byTile[key.renamed layer]?).or records.byTile[key]?
      else if key.layer = layer then none else records.byTile[key]? := by
  have hback : ∀ item ∈ records.ofLayer layer, item.1.renamed target = key → item.1 = key.renamed layer := by
    rintro item hitem rfl
    rw [← (mem_ofLayer.mp hitem).2]
    rfl
  rw [byTile_rename]
  by_cases htarget : key.layer = target
  · rw [if_pos htarget]
    cases hmoved : records.byTile[key.renamed layer]? with
    | none =>
      refine Table.getElem?_relocate_of_ne _ _ _ _ fun item hitem => ⟨?_, fun hplace => ?_⟩
      · rintro rfl
        exact hne ((mem_ofLayer.mp hitem).2.symm.trans htarget)
      · rw [← hback item hitem hplace, (mem_ofLayer.mp hitem).1] at hmoved
        cases hmoved
    | some record =>
      have hplace : (key.renamed layer).renamed target = key := htarget ▸ rfl
      have hsep : ∀ item ∈ records.ofLayer layer, ∀ other ∈ records.ofLayer layer, item.1.renamed target ≠ other.1 :=
        fun item _ other hother heq => hne ((mem_ofLayer.mp hother).2.symm.trans (congrArg TileKey.layer heq).symm)
      have hfound := Table.getElem?_relocate_of_place (fun item : TileKey × Record => item.1.renamed target) id _
        records.byTile (records.nodup_ofLayer_renamed layer target) hsep (key.renamed layer, record) (mem_ofLayer.mpr ⟨hmoved, rfl⟩)
      dsimp only at hfound
      rw [hplace] at hfound
      exact hfound
  · have haway : ∀ item ∈ records.ofLayer layer, item.1.renamed target ≠ key :=
      fun item _ heq => htarget (congrArg TileKey.layer heq).symm
    rw [if_neg htarget]
    by_cases hlayer : key.layer = layer
    · rw [if_pos hlayer]
      refine Table.getElem?_relocate_of_origin _ _ _ _ haway ?_
      cases hrecord : records.byTile[key]? with
      | none => exact Or.inr rfl
      | some record => exact Or.inl (List.mem_map.mpr ⟨(key, record), mem_ofLayer.mpr ⟨hrecord, hlayer⟩, rfl⟩)
    · rw [if_neg hlayer]
      refine Table.getElem?_relocate_of_ne _ _ _ _ fun item hitem => ⟨?_, haway item hitem⟩
      rintro rfl
      exact hlayer (mem_ofLayer.mp hitem).2

/-- No record of the layer is left. -/
theorem live_rename_of_layer (records : Records) (hne : layer ≠ target) {key : TileKey} (hkey : key.layer = layer) :
    (records.rename layer target).2.live key = none := by
  rw [live, getElem?_rename records hne, if_neg (hkey ▸ hne), if_pos hkey]
  rfl

/-- A tile of the other layer has the record of the tile that was in its place. -/
theorem live_rename_of_target {records : Records} (hne : layer ≠ target) {key : TileKey} (hkey : key.layer = target)
    {record : Record} (h : records.live (key.renamed layer) = some record) :
    (records.rename layer target).2.live key = some record := by
  rw [live, getElem?_rename records hne, if_pos hkey, (Option.filter_eq_some_iff.mp h).1, Option.some_or]
  rw [live, (Option.filter_eq_some_iff.mp h).1] at h
  exact h

end Records

/-- Records of a layer moved to one that has none. -/
theorem Records.moved_rename {records : Records} (layer : String)
    (hfree : ∀ key : TileKey, key.layer = target → records.byTile[key]? = none) :
    Table.Moved layer target records.byTile (records.rename layer target).2.byTile := by
  intro key
  by_cases hne : layer = target
  · subst hne
    rw [rename_self]
    by_cases hkey : key.layer = layer
    · rw [if_pos hkey, ← hkey]
      rfl
    · rw [if_neg hkey, if_neg hkey]
  · rw [getElem?_rename records hne]
    split
    · rename_i hkey
      rw [hfree key hkey, Option.or_none]
    · rfl

namespace Resident

variable {store : Resident}

/-- Whether a store moves a layer depends on nothing but the existence of the other one. -/
theorem onState_rename_of_exists (h : store.layerExists target = true) : (alone (.rename layer target)).onState store =
    (.error (.storage s!"cannot rename {layer} to {target}: target layer exists"), store) := by
  rw [onState_rename, rename, if_pos h]

/-- A store that has nothing of the target moves all tiles of the layer there. -/
theorem onState_rename_of_not_exists (layer : String) (h : store.layerExists target = false) :
    ∃ (found : Bool) (store' : Resident), (alone (.rename layer target)).onState store = (.ok found, store') ∧
      Table.Moved layer target store.tiles store'.tiles := by
  rcases store.onState_rename_cases layer target with ⟨hexists, -⟩ | ⟨-, hbare, hrun⟩ | ⟨-, -, hrun⟩
  · exact absurd (h.symm.trans hexists) Bool.false_ne_true
  · exact ⟨false, store, hrun, moved_of_bare h hbare⟩
  · exact ⟨true, store.withMoved layer target, hrun, moved_withMoved h⟩

end Resident

namespace Broker

variable {σ : Type}

/-- What is served of a tile after a layer has been moved to another one, by what was served before. -/
def carried (layer target : String) (before : Tile → Served) (request : Tile) : Served :=
  if request.layer = target then
    let origin := before { request with layer := layer }
    ⟨{ origin.tile with layer := target }, origin.found⟩
  else if request.layer = layer then ⟨request, .ok false⟩
  else before request

variable {tiles tiles' : Std.ExtTreeMap TileKey Payload} {records records' : Records} {request : Tile} {record : Record}
  {payload : Payload}

/-! ## What is served, case by case -/

/-- A tile without a live record is not served. -/
theorem servedOf_of_not_live (h : records.live request.key = none) : servedOf tiles records request = ⟨request, .ok false⟩ := by
  unfold servedOf
  rw [h]

/-- A tile whose record says that it is empty is not served, but the request notes what the record says. -/
theorem servedOf_of_empty (h : records.live request.key = some record) (hsize : record.size = 0) :
    servedOf tiles records request = ⟨noted request record, .ok false⟩ := by
  unfold servedOf
  rw [h]
  exact if_pos hsize

/-- A tile that has a record but no payload is an error. -/
theorem servedOf_of_missing (h : records.live request.key = some record) (hsize : record.size ≠ 0)
    (htile : tiles[request.key]? = none) : servedOf tiles records request = missing request record := by
  unfold servedOf
  rw [h]
  dsimp only
  rw [servedAs, if_neg hsize, htile]

/-- A tile whose payload has the size that the record says is served with it. -/
theorem servedOf_of_payload (h : records.live request.key = some record) (hsize : record.size ≠ 0)
    (htile : tiles[request.key]? = some payload) (hlength : payload.size = record.size) :
    servedOf tiles records request = ⟨request.fill payload, .ok true⟩ := by
  unfold servedOf
  rw [h]
  dsimp only
  rw [servedAs, if_neg hsize, htile]
  exact if_pos hlength

/-- A tile of a consistent store has no record that has not expired, or one of an empty payload, or one of the payload that is
stored. -/
theorem Consistent.live_cases (h : Consistent tiles records) (key : TileKey) :
    records.live key = none ∨ (∃ record : Record, records.live key = some record ∧ record.size = 0) ∨
      ∃ (record : Record) (payload : Payload), records.live key = some record ∧ record.size ≠ 0 ∧ tiles[key]? = some payload ∧
        payload.size = record.size := by
  cases hlive : records.live key with
  | none => exact Or.inl rfl
  | some record =>
    by_cases hsize : record.size = 0
    · exact Or.inr (Or.inl ⟨record, rfl, hsize⟩)
    · have hsame := h key
      rw [(Option.filter_eq_some_iff.mp hlive).1] at hsame
      obtain ⟨payload, hpayload, hlength⟩ := Option.map_eq_some_iff.mp hsame
      exact Or.inr (Or.inr ⟨record, payload, rfl, hsize, hpayload, hlength⟩)

/-- A consistent store is never reported to be damaged. -/
theorem Consistent.found (h : Consistent tiles records) (request : Tile) :
    ∃ found : Bool, (servedOf tiles records request).found = .ok found := by
  rcases h.live_cases request.key with hlive | ⟨record, hlive, hsize⟩ | ⟨record, payload, hlive, hsize, htile, hlength⟩
  · exact ⟨false, congrArg Served.found (servedOf_of_not_live hlive)⟩
  · exact ⟨false, congrArg Served.found (servedOf_of_empty hlive hsize)⟩
  · exact ⟨true, congrArg Served.found (servedOf_of_payload hlive hsize htile hlength)⟩

/-- A tile of a consistent store that is asked for with some size has no record that has not expired if it comes back as it was
asked for. -/
theorem Consistent.live_eq_none (h : Consistent tiles records) (hsize : request.size ≠ 0)
    (hserved : servedOf tiles records request = ⟨request, .ok false⟩) : records.live request.key = none := by
  rcases h.live_cases request.key with hlive | ⟨record, hlive, hempty⟩ | ⟨record, payload, hlive, hfull, htile, hlength⟩
  · exact hlive
  · rw [servedOf_of_empty hlive hempty] at hserved
    have hnoted : (noted request record).size = request.size := congrArg (·.tile.size) hserved
    exact absurd (hnoted.symm.trans hempty) hsize
  · rw [servedOf_of_payload hlive hfull htile hlength] at hserved
    exact nomatch congrArg Served.found hserved

/-! ## Moved tiles and records -/

/-- Tiles and records that agree still do so once both have been moved to the other layer. -/
theorem Consistent.moved (h : Consistent tiles records) (htiles : Table.Moved layer target tiles tiles')
    (hrecords : Table.Moved layer target records.byTile records'.byTile) : Consistent tiles' records' := by
  intro key
  rw [htiles, hrecords]
  split
  · exact h _
  · split
    · rfl
    · exact h key

/-- Where the tiles and the records of a layer have moved together, what was served of its tiles has moved with them. -/
theorem Consistent.servedOf_moved (h : Consistent tiles records) (htiles : Table.Moved layer target tiles tiles')
    (hrecords : Table.Moved layer target records.byTile records'.byTile) (request : Tile) :
    servedOf tiles' records' request = carried layer target (servedOf tiles records) request := by
  have hlive : records'.live request.key = if request.layer = target then records.live (request.key.renamed layer)
      else if request.layer = layer then none else records.live request.key := by
    unfold Records.live
    rw [hrecords, show request.key.layer = request.layer from rfl]
    split
    · rfl
    · split <;> rfl
  unfold carried
  by_cases htarget : request.layer = target
  · rw [if_pos htarget] at hlive ⊢
    have htile : tiles'[request.key]? = tiles[request.key.renamed layer]? := (htiles request.key).trans (if_pos htarget)
    subst htarget
    let origin : Tile := { request with layer := layer }
    rcases h.live_cases origin.key with hnone | ⟨record, hsome, hempty⟩ | ⟨record, payload, hsome, hfull, hpayload, hlength⟩
    · rw [servedOf_of_not_live (hlive.trans hnone), servedOf_of_not_live hnone]
    · rw [servedOf_of_empty (hlive.trans hsome) hempty, servedOf_of_empty hsome hempty]
      rfl
    · rw [servedOf_of_payload (hlive.trans hsome) hfull (htile.trans hpayload) hlength,
        servedOf_of_payload hsome hfull hpayload hlength]
      rfl
  · rw [if_neg htarget] at hlive ⊢
    by_cases hlayer : request.layer = layer
    · rw [if_pos hlayer] at hlive ⊢
      exact servedOf_of_not_live hlive
    · rw [if_neg hlayer] at hlive ⊢
      have htile : tiles'[request.key]? = tiles[request.key]? :=
        (htiles request.key).trans ((if_neg htarget).trans (if_neg hlayer))
      unfold servedOf servedAs
      rw [hlive, htile]

/-! ## Records moved without their tiles -/

/-- Where only the records of a layer have moved, every tile is served as before exactly if the layer had no records but expired
ones, and none of these has taken the place of one that had not expired. -/
theorem Consistent.servedOf_torn_iff (h : Consistent tiles records) (hne : layer ≠ target) :
    (∀ request : Tile, servedOf tiles (records.rename layer target).2 request = servedOf tiles records request) ↔
      ∀ key : TileKey, key.layer = layer →
        records.live key = none ∧ (key ∈ records.byTile → records.live (key.renamed target) = none) := by
  have hlookUp := records.getElem?_rename hne
  constructor
  · intro hsame key hkey
    -- A request with a size tells a tile that has no record from one with a record of an empty payload.
    have hnone : ∀ key : TileKey, (records.rename layer target).2.live key = none → records.live key = none := by
      intro key hafter
      let sized : Tile := { TwoTier.requestOf key with size := 1 }
      have hbefore : servedOf tiles records sized = ⟨sized, .ok false⟩ := (hsame sized).symm.trans (servedOf_of_not_live hafter)
      exact h.live_eq_none Nat.one_ne_zero hbefore
    have hgone := records.live_rename_of_layer hne hkey
    refine ⟨hnone key hgone, fun hmem => hnone _ ?_⟩
    obtain ⟨record, hrecord⟩ := Table.mem_iff_exists.mp hmem
    have hback : (key.renamed target).renamed layer = key := hkey ▸ rfl
    have hmoved : (records.rename layer target).2.byTile[key.renamed target]? = records.byTile[key]? := by
      refine (hlookUp _).trans ((if_pos rfl).trans ?_)
      rw [hback, hrecord]
      rfl
    exact (congrArg (Option.filter _) hmoved).trans (hnone key hgone)
  · intro hexpired request
    have hlive : (records.rename layer target).2.live request.key = records.live request.key := by
      rw [Records.live, hlookUp]
      split
      · rename_i htarget
        have hplace : (request.key.renamed layer).renamed target = request.key := htarget ▸ rfl
        obtain ⟨hnone, hreplaced⟩ := hexpired (request.key.renamed layer) rfl
        rw [hplace] at hreplaced
        cases hrecord : records.byTile[request.key.renamed layer]? with
        | none => rfl
        | some record =>
          rw [Records.live, hrecord] at hnone
          exact hnone.trans (hreplaced (Table.mem_iff_exists.mpr ⟨record, hrecord⟩)).symm
      · split
        · rename_i hlayer
          exact (hexpired request.key hlayer).1.symm
        · rfl
    unfold servedOf
    rw [hlive]

variable {broker : Broker σ} {ledger : RecordStore σ} {view : σ → Resident × Records} {ready : σ → Prop} {state : σ}

/-- A layer renamed: the records go first, and stay where they are then if the store refuses. -/
theorem Over.rename (h : broker.Over ledger view ready) (hready : ready state)
    (hledger : Answers ledger view ready (.rename layer target)) : ∃ after : σ,
      let stored := (Resident.alone (.rename layer target)).onState (view state).1
      let recorded := (view state).2.rename layer target
      (broker.rename layer target).onState state = (stored.1.map (recorded.1 || ·), after) ∧
        (view after).1 = stored.2 ∧ (view after).2 = recorded.2 ∧ ready after := by
  obtain ⟨asked, hasked, hview, hready'⟩ := hledger state hready
  obtain ⟨after, hrun, hafter, hready''⟩ := h.store (.rename layer target) asked hready'
  rw [hview] at hrun hafter
  refine ⟨after, ?_, congrArg Prod.fst hafter, congrArg Prod.snd hafter, hready''⟩
  unfold Broker.rename Broker.both
  rw [h.records]
  dsimp only
  rw [Run.onState_bind_ok hasked, Run.onState_bind, hrun]
  cases ((Resident.alone (.rename layer target)).onState (view state).1).1 <;> rfl

/-- Where the other layer does not exist, the tiles move with their records. -/
theorem Over.rename_of_not_exists (h : broker.Over ledger view ready) (hready : ready state)
    (hledger : Answers ledger view ready (.rename layer target)) (hconsistent : Consistent (view state).1.tiles (view state).2)
    (hexists : (view state).1.layerExists target = false) : ∃ (found : Bool) (after : σ),
      (broker.rename layer target).onState state = (.ok found, after) ∧ ready after ∧
      Consistent (view after).1.tiles (view after).2 ∧
      servedOf (view after).1.tiles (view after).2 = carried layer target (servedOf (view state).1.tiles (view state).2) := by
  obtain ⟨after, hrun, hstore, hrecords, hafter⟩ := h.rename hready hledger
  obtain ⟨found, store', hmove, htiles⟩ := Resident.onState_rename_of_not_exists layer hexists
  have hfree : ∀ key : TileKey, key.layer = target → (view state).2.byTile[key]? = none := by
    intro key hkey
    have hsame := hconsistent key
    rw [Resident.getElem?_of_not_exists hexists hkey] at hsame
    exact Option.map_eq_none_iff.mp hsame.symm
  have hmoved := Records.moved_rename layer hfree
  rw [hmove] at hrun hstore
  refine ⟨_, after, hrun, hafter, ?_, ?_⟩ <;> rw [hstore, hrecords]
  · exact hconsistent.moved htiles hmoved
  · exact funext (hconsistent.servedOf_moved htiles hmoved)

/-- Where it exists, the records move alone. -/
theorem Over.rename_of_exists (h : broker.Over ledger view ready) (hready : ready state)
    (hledger : Answers ledger view ready (.rename layer target)) (hexists : (view state).1.layerExists target = true) :
    ∃ (error : Error) (after : σ), (broker.rename layer target).onState state = (.error error, after) ∧ ready after ∧
      (view after).1 = (view state).1 ∧ (view after).2 = ((view state).2.rename layer target).2 := by
  obtain ⟨after, hrun, hstore, hrecords, hafter⟩ := h.rename hready hledger
  rw [Resident.onState_rename_of_exists hexists] at hrun hstore
  exact ⟨_, after, hrun, hafter, hstore, hrecords⟩

/-- What a broker serves is what its tiles and its records determine. -/
theorem Over.served_eq (h : broker.Over ledger view ready) (hready : ready state) (request : Tile) :
    ((broker.get request).run state).1 = servedOf (view state).1.tiles (view state).2 request := by
  obtain ⟨looked, hrun, -⟩ := h.get hready request
  exact congrArg Prod.fst hrun

/-- Where the records of a layer have moved alone, all gets answer as before exactly if no record has moved that made a
difference. -/
theorem Over.servedIn_torn_iff (h : broker.Over ledger view ready) (hready : ready state) {after : σ} (hafter : ready after)
    (hstore : (view after).1 = (view state).1) (hrecords : (view after).2 = ((view state).2.rename layer target).2)
    (hconsistent : Consistent (view state).1.tiles (view state).2) :
    (∀ requests : List Tile, broker.servedIn after requests = broker.servedIn state requests) ↔
      layer = target ∨ ∀ key : TileKey, key.layer = layer →
        (view state).2.live key = none ∧ (key ∈ (view state).2.byTile → (view state).2.live (key.renamed target) = none) := by
  have hseen : (∀ requests : List Tile, broker.servedIn after requests = broker.servedIn state requests) ↔
      ∀ request : Tile, servedOf (view state).1.tiles ((view state).2.rename layer target).2 request =
        servedOf (view state).1.tiles (view state).2 request := by
    simp only [h.servedIn_eq hafter, h.servedIn_eq hready, hstore, hrecords]
    exact ⟨fun hsame request => List.map_inj_left.mp (hsame [request]) request List.mem_cons_self,
      fun hsame requests => List.map_congr_left fun request _ => hsame request⟩
  rw [hseen]
  by_cases hne : layer = target
  · subst hne
    rw [Records.rename_self]
    exact iff_of_true (fun _ => rfl) (Or.inl rfl)
  · rw [or_iff_right hne]
    exact hconsistent.servedOf_torn_iff hne

end Broker

namespace Depot

/-- A layer renamed by the broker of a depot whose store and records are consistent. The renaming succeeds exactly if the other
layer does not exist; what was served of the layer is then served of the other one. If it fails, every tile is served as before
exactly if the layer had no records but expired ones, and none of these has taken the place of one that had not expired (or both
names are the same). No tile of the layer is found then, and where the other layer has no tile in the place of one that was
recorded, the store is reported to be damaged. -/
theorem renamed_whole_iff (name gate : String) (depot : Depot) (hget : depot.recordsGate.refused.contains "get" = false)
    (hrename : depot.recordsGate.refused.contains "rename" = false)
    (hconsistent : Broker.Consistent ((residentCell name).read depot).tiles depot.records) (layer target : String) :
    let broker := broker name gate
    let renamed := (broker.rename layer target).onState depot
    let before := fun request => ((broker.get request).run depot).1
    ((∃ found : Bool, renamed.1 = .ok found) ↔ ((residentCell name).read depot).layerExists target = false) ∧
    (∀ found : Bool, renamed.1 = .ok found → ∀ requests : List Tile,
      broker.servedIn renamed.2 requests = requests.map (Broker.carried layer target before) ∧
        ∀ served ∈ broker.servedIn renamed.2 requests, ∃ found : Bool, served.found = .ok found) ∧
    ∀ error : Error, renamed.1 = .error error →
      ((∀ requests : List Tile, broker.servedIn renamed.2 requests = broker.servedIn depot requests) ↔
        layer = target ∨ ∀ key : TileKey, key.layer = layer →
          depot.records.live key = none ∧ (key ∈ depot.records.byTile → depot.records.live (key.renamed target) = none)) ∧
      (layer ≠ target → ∀ request : Tile, request.layer = layer →
        ((broker.get request).run renamed.2).1 = ⟨request, .ok false⟩) ∧
      (layer ≠ target → ∀ (request : Tile) (record : Record), request.layer = target →
        depot.records.live (request.key.renamed layer) = some record → record.size ≠ 0 →
        ((residentCell name).read depot).tiles[request.key]? = none →
        ((broker.get request).run renamed.2).1 = Broker.missing request record) := by
  intro broker renamed before
  have hover : broker.Over (ledgerBehind gate) (brokerView name) (·.recordsGate.refused = depot.recordsGate.refused) :=
    broker_over name gate hget
  have hledger : Broker.Answers (ledgerBehind gate) (brokerView name) (·.recordsGate.refused = depot.recordsGate.refused)
      (.rename layer target) := answers_ledgerBehind name gate hrename
  have hbefore : before = Broker.servedOf ((residentCell name).read depot).tiles depot.records :=
    funext (hover.served_eq rfl)
  cases hexists : ((residentCell name).read depot).layerExists target with
  | false =>
    obtain ⟨moved, after, hrun, hafter, hsound, hserved⟩ := hover.rename_of_not_exists rfl hledger hconsistent hexists
    have hrenamed : renamed = (.ok moved, after) := hrun
    rw [hrenamed]
    refine ⟨iff_of_true ⟨moved, rfl⟩ rfl, fun found _ requests => ?_, nofun⟩
    rw [hover.servedIn_eq hafter, hserved, hbefore]
    refine ⟨rfl, fun served hmem => ?_⟩
    obtain ⟨request, -, rfl⟩ := List.mem_map.mp hmem
    rw [← hserved]
    exact hsound.found request
  | true =>
    obtain ⟨error, after, hrun, hafter, hstore, hrecords⟩ := hover.rename_of_exists rfl hledger hexists
    have hrenamed : renamed = (.error error, after) := hrun
    rw [hrenamed]
    refine ⟨iff_of_false nofun nofun, nofun, fun _ _ => ⟨hover.servedIn_torn_iff rfl hafter hstore hrecords hconsistent,
      fun hne request hlayer => ?_, fun hne request record htarget hlive hsize htile => ?_⟩⟩
    · rw [hover.served_eq hafter, hstore, hrecords]
      exact Broker.servedOf_of_not_live (depot.records.live_rename_of_layer hne hlayer)
    · rw [hover.served_eq hafter, hstore, hrecords]
      exact Broker.servedOf_of_missing (Records.live_rename_of_target hne htarget hlive) hsize htile

/-- A layer is renamed to a new one, and its tile is served under the new name; another time it is to be renamed to one that
exists, which is refused, and its tile is lost. -/
theorem renamed_whole_to_new_layer :
    let depot := Sample.brokered [.put (Sample.tile "roads" 1 2 5), .put (Sample.tile "streets" 3 4 7)]
    let broker := broker "tiles" "meta"
    let moved := (broker.rename "roads" "lanes").onState depot
    let refused := (broker.rename "roads" "streets").onState depot
    Broker.Consistent ((residentCell "tiles").read depot).tiles depot.records ∧ moved.1 = .ok true ∧
      (broker.servedIn moved.2 [Sample.request "lanes" 1 2, Sample.request "roads" 1 2, Sample.request "streets" 3 4]).map
        Served.found = [.ok true, .ok false, .ok true] ∧
      ((broker.get (Sample.request "roads" 1 2)).run refused.2).1 = ⟨Sample.request "roads" 1 2, .ok false⟩ := by
  intro depot broker moved refused
  have hconsistent : Broker.Consistent ((residentCell "tiles").read depot).tiles depot.records := by
    refine Sample.consistent_brokered ?_
    simp only [List.forall_mem_cons]
    exact ⟨Sample.sized_put _ _ _ _, Sample.sized_put _ _ _ _, nofun⟩
  have hmoved : moved.1 = .ok true := by decide +kernel
  have hserved := ((renamed_whole_iff "tiles" "meta" depot (by decide +kernel) (by decide +kernel) hconsistent "roads"
    "lanes").2.1 true hmoved [Sample.request "lanes" 1 2, Sample.request "roads" 1 2, Sample.request "streets" 3 4]).1
  obtain ⟨error, hrefused⟩ : ∃ error : Error, refused.1 = .error error :=
    ⟨.storage "cannot rename roads to streets: target layer exists", by decide +kernel⟩
  have hlost := ((renamed_whole_iff "tiles" "meta" depot (by decide +kernel) (by decide +kernel) hconsistent "roads"
    "streets").2.2 error hrefused).2.1 (by decide) (Sample.request "roads" 1 2) rfl
  refine ⟨hconsistent, hmoved, ?_, hlost⟩
  rw [hserved]
  decide +kernel

/-- A layer is to be renamed to one that exists, which is refused. Its tile was served before and is not found then, and for a
tile of the other layer that was not found before, the store is reported to be damaged. -/
theorem layer_torn_by_renaming :
    let broker := broker "tiles" "meta"
    let depot := Sample.brokered [.put (Sample.tile "roads" 1 2 5), .put (Sample.tile "streets" 3 4 7)]
    let renamed := (broker.rename "roads" "streets").onState depot
    let found (request : Tile) (depot : Depot) := ((broker.get request).run depot).1.found
    renamed.1 = .error (.storage "cannot rename roads to streets: target layer exists") ∧
      found (Sample.request "roads" 1 2) depot = .ok true ∧ found (Sample.request "roads" 1 2) renamed.2 = .ok false ∧
      found (Sample.request "streets" 1 2) depot = .ok false ∧ found (Sample.request "streets" 1 2) renamed.2 =
        .error (.storage "blob for TileObject[streets/world/png/default/3/1/2] missing, metadata records 5 bytes") := by
  decide +kernel

end Depot

end TileDepot
