import TileDepot.Proofs.Depot.Requests
import TileDepot.Proofs.Store.Alone

/-!
# A front store within its backing store

A front store that holds nothing but what the backing store holds as well goes on to do so, whatever the two are asked for
but to rename a layer. What the front store finds is then what the backing store would have found, and what it does not find
is asked of the backing store: the tiers answer as the backing store alone does.
-/

namespace TileDepot

/-- A call to rename a layer. -/
def StoreCall.isRename : StoreCall → Bool
  | .rename .. => true
  | _ => false

namespace Resident

variable {store front backing : Resident}

/-- A store that some calls have made of an empty one. -/
def Reachable (store : Resident) : Prop := ∃ calls : List StoreCall, (alone.serve calls .empty).2 = store

/-- Every layer of which there is metadata has a note. -/
def Noted (store : Resident) : Prop :=
  ∀ (layer : String) (notes : Std.ExtTreeMap String String), store.metadata[layer]? = some notes →
    ∃ key value : String, notes[key]? = some value

/-- A store of which every tile and every note is in another one too. -/
structure Within (front backing : Resident) : Prop where
  tiles : ∀ (key : TileKey) (payload : Payload), front.tiles[key]? = some payload → backing.tiles[key]? = some payload
  notes : ∀ layer key value : String, front.metadataAt layer key = some value → backing.metadataAt layer key = some value

/-- A store that can stand before another one. -/
structure Fronts (front backing : Resident) : Prop extends Within front backing where
  noted : front.Noted

/-! ## Stores whose layers have notes -/

theorem noted_empty : empty.Noted := by
  intro layer notes h
  simp [empty] at h

theorem metadata_putMetadata (store : Resident) (layer key value other : String) :
    (store.putMetadata layer key value).metadata[other]? =
      if layer = other then some ((store.metadata.getD layer ∅).insert key value) else store.metadata[other]? :=
  Table.getElem?_insert store.metadata layer other _

theorem Noted.putMetadata (h : store.Noted) (layer key value : String) : (store.putMetadata layer key value).Noted := by
  intro other notes hnotes
  rw [metadata_putMetadata] at hnotes
  split at hnotes
  · obtain rfl := Option.some.inj hnotes
    exact ⟨key, value, (Table.getElem?_insert _ key key value).trans (if_pos rfl)⟩
  · exact h other notes hnotes

theorem Drops.noted {doomed : TileKey → Bool} {forgotten : String → Bool} {run : Run Resident Bool}
    (h : Drops doomed forgotten run) (hnoted : store.Noted) : (run.onState store).2.Noted := by
  intro layer notes hnotes
  rw [h.metadata] at hnotes
  split at hnotes
  · cases hnotes
  · exact hnoted layer notes hnotes

theorem Noted.moveEntry (h : store.Noted) (layer target other : String) (notes : Std.ExtTreeMap String String)
    (hnotes : (Resident.moveEntry store.metadata layer target)[other]? = some notes) :
    ∃ key value : String, notes[key]? = some value := by
  unfold Resident.moveEntry at hnotes
  split at hnotes
  · exact h other notes hnotes
  · rename_i entry hentry
    rw [Table.getElem?_insert, Table.getElem?_erase] at hnotes
    split at hnotes
    · obtain rfl := Option.some.inj hnotes
      exact h layer entry hentry
    · split at hnotes
      · cases hnotes
      · exact h other notes hnotes

theorem Noted.alone (h : store.Noted) (call : StoreCall) : ((Resident.alone call).onState store).2.Noted := by
  cases call with
  | put tile =>
    rw [onState_put]
    cases tile.payload? <;> exact h
  | delete key => exact (drops_delete key).noted h
  | deleteRange range => exact (drops_deleteRange range).noted h
  | deleteLayer layer => exact (drops_deleteLayer layer).noted h
  | deleteGridset layer gridset => exact (drops_deleteGridset layer gridset).noted h
  | deleteParameters layer parameters => exact (drops_deleteParameters layer parameters).noted h
  | rename layer target =>
    rcases store.after_rename_cases layer target with hsame | ⟨-, hmoved⟩
    · rw [hsame]
      exact h
    · rw [hmoved]
      exact h.moveEntry layer target
  | putMetadata layer key value => exact h.putMetadata layer key value
  | get | layerExists | parametersOf | metadata | addListener | removeListener => exact h
  | clear => exact noted_empty

theorem Reachable.noted (h : store.Reachable) : store.Noted := by
  obtain ⟨calls, rfl⟩ := h
  exact TileStore.serve_keeps Noted (fun call _ _ hstore => hstore.alone call) noted_empty

/-! ## Stores within others -/

theorem metadataAt_putMetadata (store : Resident) (layer key value other key' : String) :
    (store.putMetadata layer key value).metadataAt other key' =
      if layer = other ∧ key = key' then some value else store.metadataAt other key' := by
  unfold metadataAt
  rw [metadata_putMetadata]
  by_cases hlayer : layer = other
  · subst hlayer
    rw [if_pos rfl, Option.bind_some, Table.getElem?_insert]
    refine if_congr (and_iff_right rfl).symm rfl ?_
    rw [Std.ExtTreeMap.getD_eq_getD_getElem?]
    cases store.metadata[layer]? <;> simp
  · rw [if_neg hlayer, if_neg fun h => hlayer h.1]

theorem fronts_empty (backing : Resident) : Fronts empty backing := by
  refine ⟨⟨fun key payload hkey => ?_, fun layer key value hvalue => ?_⟩, noted_empty⟩
  · simp [empty] at hkey
  · simp [empty, metadataAt] at hvalue

/-- A layer that exists in the front store exists in the backing store. -/
theorem Fronts.layerExists (h : Fronts front backing) {layer : String} (hexists : front.layerExists layer = true) :
    backing.layerExists layer = true := by
  unfold Resident.layerExists at *
  rw [Bool.or_eq_true] at *
  rcases hexists with htiles | hmetadata
  · obtain ⟨key, payload, hkey, hlayer⟩ := any_keys.mp htiles
    exact Or.inl (any_keys.mpr ⟨key, payload, h.tiles key payload hkey, hlayer⟩)
  · obtain ⟨notes, hnotes⟩ := Table.mem_iff_exists.mp (Std.ExtTreeMap.contains_iff_mem.mp hmetadata)
    obtain ⟨key, value, hvalue⟩ := h.noted layer notes hnotes
    have hbacking := h.notes layer key value (by rw [metadataAt, hnotes, Option.bind_some, hvalue])
    obtain ⟨notes', hnotes', -⟩ := Option.bind_eq_some_iff.mp hbacking
    exact Or.inr (Std.ExtTreeMap.contains_iff_mem.mpr (Table.mem_iff_exists.mpr ⟨notes', hnotes'⟩))

/-- What the backing store holds of a tile may be put into the front store. -/
theorem Fronts.fill (h : Fronts front backing) {request : Tile} {payload : Payload}
    (hkey : backing.tiles[request.key]? = some payload) :
    Fronts ((Resident.alone (.put (request.fill payload))).onState front).2 backing := by
  rw [onState_put]
  refine ⟨⟨fun key stored hstored => ?_, h.notes⟩, h.noted⟩
  change (front.tiles.insert request.key payload)[key]? = some stored at hstored
  rw [Table.getElem?_insert] at hstored
  split at hstored
  · rename_i heq
    obtain rfl := Option.some.inj hstored
    exact heq ▸ hkey
  · exact h.tiles key stored hstored

/-- A tile put into both stores, where it has a payload. -/
theorem Fronts.put (h : Fronts front backing) (tile : Tile) :
    Fronts ((Resident.alone (.put tile)).onState front).2 ((Resident.alone (.put tile)).onState backing).2 := by
  rw [onState_put, onState_put]
  cases tile.payload? with
  | none => exact h
  | some payload =>
    refine ⟨⟨fun key stored hstored => ?_, h.notes⟩, h.noted⟩
    change (front.tiles.insert tile.key payload)[key]? = some stored at hstored
    change (backing.tiles.insert tile.key payload)[key]? = some stored
    rw [Table.getElem?_insert] at hstored ⊢
    split
    · rename_i heq
      rwa [if_pos heq] at hstored
    · rename_i hne
      rw [if_neg hne] at hstored
      exact h.tiles key stored hstored

/-- What the backing store has noted may be noted in the front store. -/
theorem Fronts.note (h : Fronts front backing) {layer key value : String}
    (hnote : backing.metadataAt layer key = some value) : Fronts (front.putMetadata layer key value) backing := by
  refine ⟨⟨h.tiles, fun other key' value' hvalue => ?_⟩, h.noted.putMetadata layer key value⟩
  rw [metadataAt_putMetadata] at hvalue
  split at hvalue
  · rename_i heq
    obtain ⟨rfl, rfl⟩ := heq
    exact hnote.trans hvalue
  · exact h.notes other key' value' hvalue

theorem Fronts.putMetadata (h : Fronts front backing) (layer key value : String) :
    Fronts (front.putMetadata layer key value) (backing.putMetadata layer key value) := by
  refine ⟨⟨h.tiles, fun other key' value' hvalue => ?_⟩, h.noted.putMetadata layer key value⟩
  rw [metadataAt_putMetadata] at hvalue ⊢
  split
  · rename_i heq
    rwa [if_pos heq] at hvalue
  · rename_i hne
    rw [if_neg hne] at hvalue
    exact h.notes other key' value' hvalue

/-- The same tiles dropped from both stores, with the metadata of the same layers. -/
theorem Fronts.drop (h : Fronts front backing) {doomed : TileKey → Bool} {forgotten : String → Bool} {run : Run Resident Bool}
    (hdrops : Drops doomed forgotten run) : Fronts (run.onState front).2 (run.onState backing).2 := by
  refine ⟨⟨fun key payload hkey => ?_, fun layer key value hvalue => ?_⟩, hdrops.noted h.noted⟩
  · rw [hdrops.tiles] at hkey ⊢
    split
    · rename_i hdoomed
      rwa [if_pos hdoomed] at hkey
    · rename_i hdoomed
      rw [if_neg hdoomed] at hkey
      exact h.tiles key payload hkey
  · unfold metadataAt at *
    rw [hdrops.metadata] at hvalue ⊢
    split
    · rename_i hforgotten
      rwa [if_pos hforgotten] at hvalue
    · rename_i hforgotten
      rw [if_neg hforgotten] at hvalue
      exact h.notes layer key value hvalue

end Resident

namespace TwoTier

open Resident (alone unheard Fronts Drops)

variable {α : Type}

/-- A run on two tiers that cannot be told from a run on the backing store alone, where the front store can stand before it. -/
def Follows (run : Run (Resident × Resident) α) (plain : Run Resident α) : Prop := Resident.Imitates Fronts run plain

/-! ## Tiles and notes asked for -/

theorem follows_get (request : Tile) :
    Follows (get (Resident.tileStore .first unheard) (Resident.tileStore .second unheard) request) (alone (.get request)) := by
  intro front backing h
  have hfront := Resident.onState_first (.get request) front backing
  rw [Resident.onState_get] at hfront
  rw [get, Run.onState_bind_ok hfront, Resident.onState_get]
  cases hcached : front.tiles[request.key]? with
  | some payload =>
    rw [h.tiles request.key payload hcached]
    exact ⟨_, backing, rfl, Resident.sameButReads_read backing _, ⟨h.tiles, h.notes⟩, h.noted⟩
  | none =>
    have hbacking := Resident.onState_second (.get request) { front with reads := front.reads + 1 } backing
    rw [Resident.onState_get] at hbacking
    dsimp only
    rw [Run.onState_bind_ok hbacking]
    have hread : Fronts { front with reads := front.reads + 1 } { backing with reads := backing.reads + 1 } :=
      ⟨⟨h.tiles, h.notes⟩, h.noted⟩
    cases hstored : backing.tiles[request.key]? with
    | none => exact ⟨_, _, rfl, .refl _, hread⟩
    | some payload =>
      dsimp only
      rw [Run.onState_bind_ok (Run.onState_ignoringFailure _ _), Resident.onState_first]
      exact ⟨_, _, rfl, .refl _, hread.fill hstored⟩

theorem follows_metadata (layer key : String) :
    Follows (metadata (Resident.tileStore .first unheard) (Resident.tileStore .second unheard) layer key)
      (alone (.metadata layer key)) := by
  have hanswer : ∀ store : Resident, (alone (.metadata layer key)).onState store = (.ok (store.metadataAt layer key), store) :=
    fun store => Resident.onState_alone store (.metadata layer key)
  intro front backing h
  have hfront := Resident.onState_first (.metadata layer key) front backing
  rw [hanswer] at hfront
  rw [metadata, Run.onState_bind_ok hfront, hanswer]
  cases hcached : front.metadataAt layer key with
  | some value =>
    rw [h.notes layer key value hcached]
    exact ⟨front, backing, rfl, .refl backing, h⟩
  | none =>
    have hbacking := Resident.onState_second (.metadata layer key) front backing
    rw [hanswer] at hbacking
    dsimp only
    rw [Run.onState_bind_ok hbacking]
    cases hnote : backing.metadataAt layer key with
    | none => exact ⟨front, backing, rfl, .refl backing, h⟩
    | some value =>
      dsimp only
      rw [Run.onState_bind_ok (Run.onState_ignoringFailure _ _), Resident.onState_first]
      exact ⟨front.putMetadata layer key value, backing, rfl, .refl backing, h.note hnote⟩

theorem follows_layerExists (layer : String) :
    Follows (layerExists (Resident.tileStore .first unheard) (Resident.tileStore .second unheard) layer)
      (alone (.layerExists layer)) := by
  have hanswer : ∀ store : Resident, (alone (.layerExists layer)).onState store = (.ok (store.layerExists layer), store) :=
    fun store => Resident.onState_alone store (.layerExists layer)
  intro front backing h
  have hfront := Resident.onState_first (.layerExists layer) front backing
  rw [hanswer] at hfront
  refine ⟨front, backing, ?_, ?_, h⟩
  · rw [layerExists, Run.onState_bind_ok hfront, hanswer]
    cases hexists : front.layerExists layer with
    | true =>
      rw [h.layerExists hexists]
      rfl
    | false =>
      have hbacking := Resident.onState_second (.layerExists layer) front backing
      rw [hanswer] at hbacking
      exact hbacking
  · rw [hanswer]
    exact .refl backing

/-! ## Changes -/

/-- A change of the front store and then of the backing store, where both answer alike. A failure of the first would have been
one of the second. -/
theorem follows_inTurn {call : StoreCall}
    (hanswer : ∀ front backing : Resident, ((alone call).onState front).1 = ((alone call).onState backing).1)
    (hfronts : ∀ front backing : Resident, Fronts front backing →
      Fronts ((alone call).onState front).2 ((alone call).onState backing).2) :
    Follows (Resident.tileStore .first unheard call >>= fun _ => Resident.tileStore .second unheard call) (alone call) := by
  intro front backing h
  have hfront := Resident.onState_first call front backing
  cases hresult : ((alone call).onState front).1 with
  | error error =>
    have hbacking : ((alone call).onState backing).1 = .error error := (hanswer front backing).symm.trans hresult
    rw [hresult, Resident.alone_of_error hresult] at hfront
    rw [Run.onState_bind_error hfront, hbacking, Resident.alone_of_error hbacking]
    exact ⟨front, backing, rfl, .refl backing, h⟩
  | ok value =>
    rw [hresult] at hfront
    rw [Run.onState_bind_ok hfront, Resident.onState_second]
    exact ⟨_, _, rfl, .refl _, hfronts front backing h⟩

/-- Tiles dropped from both tiers: there were some to drop exactly if there were some in the backing store. -/
theorem follows_both {doomed : TileKey → Bool} {forgotten : String → Bool} {run : Run Resident Bool}
    (hdrops : Drops doomed forgotten run) {inFront inBacking : Run (Resident × Resident) Bool}
    (hfront : ∀ front backing : Resident,
      inFront.onState (front, backing) = ((run.onState front).1, (run.onState front).2, backing))
    (hbacking : ∀ front backing : Resident,
      inBacking.onState (front, backing) = ((run.onState backing).1, front, (run.onState backing).2)) :
    Follows (both inFront inBacking) run := by
  intro front backing h
  refine ⟨(run.onState front).2, (run.onState backing).2, ?_, .refl _, h.drop hdrops⟩
  have hfirst := hfront front backing
  have hsecond := hbacking (run.onState front).2 backing
  rw [hdrops.found] at hfirst hsecond
  rw [both, Run.onState_bind_ok hfirst, Run.onState_bind_ok hsecond, hdrops.found]
  have hwithin : front.tiles.keys.any doomed = true → backing.tiles.keys.any doomed = true := by
    intro hany
    obtain ⟨key, payload, hkey, hdoomed⟩ := Resident.any_keys.mp hany
    exact Resident.any_keys.mpr ⟨key, payload, h.tiles key payload hkey, hdoomed⟩
  have hfound : (front.tiles.keys.any doomed || backing.tiles.keys.any doomed) = backing.tiles.keys.any doomed := by
    rw [Bool.or_eq_right_iff_imp]
    exact hwithin
  rw [hfound]
  rfl

/-- Every call but one that renames a layer is answered as by the backing store alone. -/
theorem follows {call : StoreCall} (hcall : call.isRename = false) :
    Follows (tileStore (Resident.tileStore .first unheard) (Resident.tileStore .second unheard) call) (alone call) := by
  cases call with
  | get request => exact follows_get request
  | put tile =>
    refine follows_inTurn (fun front backing => ?_) fun front backing h => h.put tile
    rw [Resident.onState_put, Resident.onState_put]
    cases tile.payload? <;> rfl
  | delete key =>
    exact follows_both (Resident.drops_delete key) (Resident.onState_first (.delete key))
      (Resident.onState_second (.delete key))
  | deleteRange range =>
    exact follows_both (Resident.drops_deleteRange range) (Resident.onState_first (.deleteRange range))
      (Resident.onState_second (.deleteRange range))
  | deleteLayer layer =>
    exact follows_both (Resident.drops_deleteLayer layer) (Resident.onState_first (.deleteLayer layer))
      (Resident.onState_second (.deleteLayer layer))
  | deleteGridset layer gridset =>
    exact follows_both (Resident.drops_deleteGridset layer gridset) (Resident.onState_first (.deleteGridset layer gridset))
      (Resident.onState_second (.deleteGridset layer gridset))
  | deleteParameters layer parameters =>
    exact follows_both (Resident.drops_deleteParameters layer parameters)
      (Resident.onState_first (.deleteParameters layer parameters))
      (Resident.onState_second (.deleteParameters layer parameters))
  | rename => cases hcall
  | layerExists layer => exact follows_layerExists layer
  | metadata layer key => exact follows_metadata layer key
  | putMetadata layer key value =>
    exact follows_inTurn (fun _ _ => rfl) fun front backing h => h.putMetadata layer key value
  | clear =>
    refine follows_inTurn (fun _ _ => rfl) fun front backing _ => ?_
    exact ⟨⟨fun key payload hkey => hkey, fun layer key value hvalue => hvalue⟩, Resident.noted_empty⟩
  | parametersOf | addListener | removeListener =>
    intro front backing h
    exact ⟨front, _, Resident.onState_second _ front backing, .refl _, ⟨h.tiles, h.notes⟩, h.noted⟩

/-- Calls of two tiers, none of which renames a layer, give the outcomes that the backing store alone would give. -/
theorem serve_follows {calls : List StoreCall} (hcalls : ∀ call ∈ calls, call.isRename = false) {front backing : Resident}
    (h : Fronts front backing) :
    let served := (tileStore (Resident.tileStore .first unheard) (Resident.tileStore .second unheard)).serve calls
      (front, backing)
    served.1 = (alone.serve calls backing).1 ∧ Fronts served.2.1 served.2.2 := by
  have hserved := Resident.serve_imitates calls (fun call hcall (_ : false = false) => follows (hcalls call hcall))
    (fun _ _ htrue => nomatch htrue) front backing backing h (.refl backing)
  rw [Bool.not_false, List.filter_true, List.filter_true] at hserved
  exact hserved

end TwoTier

namespace Depot

/-- Two tiers whose front store holds nothing but what the backing store holds as well cannot be told from the backing store.
Any calls, none of which renames a layer, have the outcomes, with the tiles as they are filled, that they have with the
backing store alone, and the front store holds nothing but what the backing store holds after them. -/
theorem two_tiers_as_backing (name : String) {front backing : String} (hne : front ≠ backing) (depot : Depot)
    (hreachable : ((residentCell front).read depot).Reachable)
    (hwithin : ((residentCell front).read depot).Within ((residentCell backing).read depot))
    (calls : List StoreCall) (hcalls : ∀ call ∈ calls, call.isRename = false) :
    let tiers := (StoreTree.twoTier name (.resident front) (.resident backing)).tileStore .whole DepotPlan.unheld
    let plain := (StoreTree.resident backing).tileStore .whole DepotPlan.unheld
    let served := tiers.serve calls depot
    served.1 = (plain.serve calls depot).1 ∧
      ((residentCell front).read served.2).Within ((residentCell backing).read served.2) := by
  intro tiers plain served
  have hserved := TwoTier.serve_follows hcalls ⟨hwithin, hreachable.noted⟩
  have htiers := (twoTier_projects name hne).serve calls depot
  have hplain := (resident_projects backing).serve calls depot
  rw [show ((residentCell front).read depot, (residentCell backing).read depot) = tierView front backing depot from rfl,
    htiers] at hserved
  obtain ⟨houtcomes, hafter⟩ := hserved
  exact ⟨houtcomes.trans (congrArg Prod.fst hplain), hafter.toWithin⟩

/-- Of two tiles in the backing store the front store holds one. Both are asked for; then the other one is deleted, and both
are asked for again. -/
theorem two_tiers_as_backing_after_delete :
    let tree : StoreTree := .twoTier "tiers" (.resident "fast") (.resident "tiles")
    let front := (Resident.alone.serve [.put (Sample.tile "roads" 1 2 5)] .empty).2
    let backing := (Resident.alone.serve [.put (Sample.tile "roads" 3 4 7), .put (Sample.tile "roads" 1 2 5)] .empty).2
    let depot : Depot := { DepotPlan.opened ⟨tree, none, ⟨false, none, []⟩, .reliable⟩ (.atMinutes 5) Sample.table none with
      residents := .ofList [("fast", front), ("tiles", backing)] }
    let calls := [.get (Sample.request "roads" 1 2), .get (Sample.request "roads" 3 4),
      .delete (Sample.request "roads" 3 4).key, .get (Sample.request "roads" 3 4), .get (Sample.request "roads" 1 2)]
    let served := (tree.tileStore .whole DepotPlan.unheld).serve calls depot
    ((residentCell "fast").read depot).Reachable ∧
      ((residentCell "fast").read depot).Within ((residentCell "tiles").read depot) ∧
      (served.1.filterMap Outcome.tile).map Tile.size = [5, 7, 0, 5] := by
  intro tree front backing depot calls served
  have hreachable : ((residentCell "fast").read depot).Reachable := ⟨[.put (Sample.tile "roads" 1 2 5)], rfl⟩
  have hfronts : Resident.Fronts front backing :=
    (Resident.fronts_empty (Resident.alone.serve [.put (Sample.tile "roads" 3 4 7)] .empty).2).put (Sample.tile "roads" 1 2 5)
  have hcalls : ∀ call ∈ calls, call.isRename = false := by
    intro call hcall
    simp only [calls, List.mem_cons, List.not_mem_nil, or_false] at hcall
    rcases hcall with rfl | rfl | rfl | rfl | rfl <;> rfl
  refine ⟨hreachable, hfronts.toWithin, ?_⟩
  rw [(two_tiers_as_backing "tiers" (by decide : "fast" ≠ "tiles") depot hreachable hfronts.toWithin calls hcalls).1]
  decide +kernel

end Depot

end TileDepot
