import TileDepot.Proofs.Store.Renaming

/-!
# Parameters of stored tiles

A resident store knows the parameters of every tile that it holds by their identifier, in the layer of the tile. Three facts
together are kept by every call: the parameters of a tile are mapped; what is mapped came with a tile that was put; and so did
what is stored. Deletions take from all of them alike, and a layer that is moved takes its parameters along.
-/

namespace TileDepot

namespace Resident

variable {store : Resident} {puts : Tile → Prop} {layer target : String}

/-- What is known of a store to which certain tiles were put. -/
structure Mapped (puts : Tile → Prop) (store : Resident) : Prop where
  covered : ∀ (key : TileKey) (id : String), key ∈ store.tiles → key.parameters = some id → id ∈ store.parametersOf key.layer
  mapped : ∀ (layer id : String) (parameters : Parameters), (store.parametersOf layer)[id]? = some parameters →
    ∃ tile : Tile, puts tile ∧ tile.parametersId = some id ∧ tile.parameters = parameters
  stored : ∀ (key : TileKey) (payload : Payload), store.tiles[key]? = some payload →
    ∃ tile : Tile, puts tile ∧ tile.key.renamed key.layer = key ∧ tile.payload? = some payload

theorem mapped_empty (puts : Tile → Prop) : Mapped puts .empty where
  covered key id hkey := absurd hkey Std.ExtTreeMap.not_mem_empty
  mapped layer id parameters hmapped := by simp [parametersOf, empty] at hmapped
  stored key payload hstored := by simp [empty] at hstored

/-! ## Tiles that come -/

/-- What a put maps: nothing that was mapped before is replaced. -/
theorem getElem?_withParameters (parameters : Std.ExtTreeMap String ParametersTable) (tile : Tile) (layer id : String) :
    ((withParameters parameters tile).getD layer ∅)[id]? =
      if tile.layer = layer ∧ tile.parametersId = some id then some (((parameters.getD layer ∅)[id]?).getD tile.parameters)
      else (parameters.getD layer ∅)[id]? := by
  unfold withParameters
  cases htile : tile.parametersId with
  | none => simp
  | some own =>
    simp only [Std.ExtTreeMap.getD_insert, Std.LawfulEqCmp.compare_eq_iff_eq, Option.some.injEq]
    by_cases hlayer : tile.layer = layer
    · subst hlayer
      rw [if_pos rfl, Std.ExtTreeMap.getElem?_insertIfNew]
      simp only [Std.LawfulEqCmp.compare_eq_iff_eq, true_and]
      by_cases hid : own = id
      · subst hid
        rw [if_pos rfl]
        cases hold : (parameters.getD tile.layer ∅)[own]? with
        | none =>
          have hnew : own ∉ parameters.getD tile.layer ∅ := fun hmem => by
            obtain ⟨old, hold'⟩ := Table.mem_iff_exists.mp hmem
            cases hold.symm.trans hold'
          rw [if_pos ⟨rfl, hnew⟩, Option.getD_none]
        | some old => rw [if_neg fun hnew => hnew.2 (Table.mem_iff_exists.mpr ⟨old, hold⟩), Option.getD_some]
      · rw [if_neg fun hnew => hid hnew.1, if_neg hid]
    · rw [if_neg hlayer, if_neg fun hsame => hlayer hsame.1]

/-- A tile that is put brings its parameters along, and those of all other tiles stay mapped. -/
theorem Mapped.put (h : store.Mapped puts) {tile : Tile} (hput : puts tile) :
    ((alone (.put tile)).onState store).2.Mapped puts := by
  rw [onState_put]
  cases hpayload : tile.payload? with
  | none => exact h
  | some payload =>
    dsimp only
    have hmapped := getElem?_withParameters store.parameters tile
    refine ⟨fun key id hkey hid => ?_, fun layer id parameters hparameters => ?_, fun key found hfound => ?_⟩
    · rw [Table.mem_iff_exists, parametersOf, hmapped]
      split
      · exact ⟨_, rfl⟩
      · rename_i hother
        rw [Std.ExtTreeMap.mem_insert, Std.LawfulEqCmp.compare_eq_iff_eq] at hkey
        rcases hkey with rfl | hkey
        · exact absurd ⟨rfl, hid⟩ hother
        · exact Table.mem_iff_exists.mp (h.covered key id hkey hid)
    · rw [parametersOf, hmapped] at hparameters
      split at hparameters
      · rename_i htile
        cases hold : (store.parameters.getD layer ∅)[id]? with
        | none =>
          rw [hold] at hparameters
          exact ⟨tile, hput, htile.2, Option.some.inj hparameters⟩
        | some old =>
          rw [hold] at hparameters
          exact h.mapped layer id parameters (hold.trans hparameters)
      · exact h.mapped layer id parameters hparameters
    · rw [Table.getElem?_insert] at hfound
      split at hfound
      · rename_i htile
        subst htile
        exact ⟨tile, hput, rfl, hpayload.trans hfound⟩
      · exact h.stored key found hfound

/-! ## Tiles that go -/

/-- A store that lost tiles and parameters, but of no tile that stayed. -/
theorem Mapped.lose {store' : Resident} (h : store.Mapped puts)
    (htiles : ∀ (key : TileKey) (payload : Payload), store'.tiles[key]? = some payload → store.tiles[key]? = some payload)
    (hparameters : ∀ (layer id : String) (parameters : Parameters), (store'.parametersOf layer)[id]? = some parameters →
      (store.parametersOf layer)[id]? = some parameters)
    (hkept : ∀ (key : TileKey) (id : String), key ∈ store'.tiles → key.parameters = some id →
      (store'.parametersOf key.layer)[id]? = (store.parametersOf key.layer)[id]?) :
    store'.Mapped puts := by
  have hmem : ∀ key : TileKey, key ∈ store'.tiles → key ∈ store.tiles := by
    intro key hkey
    obtain ⟨payload, hpayload⟩ := Table.mem_iff_exists.mp hkey
    exact Table.mem_iff_exists.mpr ⟨payload, htiles key payload hpayload⟩
  refine ⟨fun key id hkey hid => ?_, fun layer id parameters hmapped => ?_, fun key payload hpayload => ?_⟩
  · obtain ⟨parameters, hmapped⟩ := Table.mem_iff_exists.mp (h.covered key id (hmem key hkey) hid)
    exact Table.mem_iff_exists.mpr ⟨parameters, (hkept key id hkey hid).trans hmapped⟩
  · exact h.mapped layer id parameters (hparameters layer id parameters hmapped)
  · exact h.stored key payload (htiles key payload hpayload)

/-- A run that drops tiles, and parameters of tiles that it drops. -/
theorem Mapped.drop {doomed : TileKey → Bool} {forgotten : String → Bool} {run : Run Resident Bool} (h : store.Mapped puts)
    (hdrops : Drops doomed forgotten run) (dropped : String → String → Prop) [∀ layer id, Decidable (dropped layer id)]
    (hparameters : ∀ layer id : String, ((run.onState store).2.parametersOf layer)[id]? =
      if dropped layer id then none else (store.parametersOf layer)[id]?)
    (hdoomed : ∀ (key : TileKey) (id : String), key.parameters = some id → dropped key.layer id → doomed key = true) :
    (run.onState store).2.Mapped puts := by
  refine h.lose (fun key payload hkey => ?_) (fun layer id parameters hmapped => ?_) (fun key id hkey hid => ?_)
  · rw [hdrops.tiles] at hkey
    split at hkey
    · cases hkey
    · exact hkey
  · rw [hparameters] at hmapped
    split at hmapped
    · cases hmapped
    · exact hmapped
  · rw [hparameters]
    refine if_neg fun hdropped => ?_
    obtain ⟨payload, hpayload⟩ := Table.mem_iff_exists.mp hkey
    rw [hdrops.tiles, if_pos (hdoomed key id hid hdropped)] at hpayload
    cases hpayload

/-- A run that drops tiles and keeps all parameters. -/
theorem Mapped.dropTiles {doomed : TileKey → Bool} {forgotten : String → Bool} {run : Run Resident Bool} (h : store.Mapped puts)
    (hdrops : Drops doomed forgotten run) (hsame : (run.onState store).2.parameters = store.parameters) :
    (run.onState store).2.Mapped puts :=
  h.drop hdrops (fun _ _ => False) (fun layer id => by rw [if_neg not_false, parametersOf, hsame, parametersOf])
    fun _ _ _ hfalse => hfalse.elim

/-- When a layer is deleted its tiles go with its parameters. -/
theorem Mapped.deleteLayer (h : store.Mapped puts) (layer : String) :
    ((alone (.deleteLayer layer)).onState store).2.Mapped puts := by
  refine h.drop (drops_deleteLayer layer) (fun other _ => layer = other) (fun other id => ?_) fun key _ _ hlayer => ?_
  · rw [onState_deleteLayer]
    change ((store.parameters.erase layer).getD other ∅)[id]? = _
    simp only [Std.ExtTreeMap.getD_erase, Std.LawfulEqCmp.compare_eq_iff_eq]
    split
    · exact Std.ExtTreeMap.getElem?_empty
    · rfl
  · exact beq_iff_eq.mpr hlayer.symm

/-- The parameters that are deleted are mapped no more, and the others are. -/
theorem parametersOf_deleteParameters (store : Resident) (layer parameters other id : String) :
    ((store.deleteParameters layer parameters).2.parametersOf other)[id]? =
      if layer = other ∧ parameters = id then none else (store.parametersOf other)[id]? := by
  unfold parametersOf Resident.deleteParameters dropTiles
  dsimp only
  cases htable : store.parameters[layer]? with
  | none =>
    dsimp only
    split
    · rename_i hdropped
      rw [← hdropped.1, Std.ExtTreeMap.getD_eq_getD_getElem?, htable]
      exact Std.ExtTreeMap.getElem?_empty
    · rfl
  | some table =>
    simp only [Std.ExtTreeMap.getD_insert, Std.LawfulEqCmp.compare_eq_iff_eq]
    by_cases hlayer : layer = other
    · rw [if_pos hlayer, Table.getElem?_erase, ← hlayer, Std.ExtTreeMap.getD_eq_getD_getElem?, htable]
      exact if_congr ⟨fun hid => ⟨rfl, hid⟩, fun hdropped => hdropped.2⟩ rfl rfl
    · rw [if_neg hlayer, if_neg fun hdropped => hlayer hdropped.1]

/-- When parameters are deleted the tiles that have them go, too. -/
theorem Mapped.deleteParameters (h : store.Mapped puts) (layer parameters : String) :
    ((alone (.deleteParameters layer parameters)).onState store).2.Mapped puts := by
  refine h.drop (drops_deleteParameters layer parameters) (fun other id => layer = other ∧ parameters = id) (fun other id => ?_)
    fun key id hid hdropped => ?_
  · rw [onState_deleteParameters]
    exact parametersOf_deleteParameters store layer parameters other id
  · obtain ⟨rfl, rfl⟩ := hdropped
    exact Bool.and_eq_true_iff.mpr ⟨beq_self_eq_true _, beq_iff_eq.mpr hid⟩

/-! ## Layers that move -/

/-- What a layer is mapped to once one has been moved; what the target had is replaced. -/
theorem parametersOf_withMoved_of_some {table : ParametersTable} (h : store.parameters[layer]? = some table)
    (target other : String) : (store.withMoved layer target).parametersOf other =
      if target = other then store.parametersOf layer else if layer = other then ∅ else store.parametersOf other := by
  change (moveEntry store.parameters layer target).getD other ∅ = _
  unfold moveEntry parametersOf
  rw [Std.ExtTreeMap.getD_eq_getD_getElem? (a := layer), h]
  simp only [Std.ExtTreeMap.getD_insert, Std.ExtTreeMap.getD_erase, Std.LawfulEqCmp.compare_eq_iff_eq, Option.getD_some]

/-- A layer without parameters takes none along. -/
theorem parametersOf_withMoved_of_none (h : store.parameters[layer]? = none) (target other : String) :
    (store.withMoved layer target).parametersOf other = store.parametersOf other := by
  change (moveEntry store.parameters layer target).getD other ∅ = _
  unfold moveEntry
  rw [h]
  rfl

/-- A tile that is moved finds its parameters where it comes to. -/
theorem mem_parametersOf_moved {key : TileKey} {id : String} (hplace : key.layer ≠ target)
    (h : id ∈ store.parametersOf key.layer) :
    id ∈ (store.withMoved layer target).parametersOf (key.moved layer target).layer := by
  cases htable : store.parameters[layer]? with
  | none =>
    have hlayer : key.layer ≠ layer := by
      intro heq
      rw [heq, parametersOf, Std.ExtTreeMap.getD_eq_getD_getElem?, htable] at h
      exact Std.ExtTreeMap.not_mem_empty h
    rw [parametersOf_withMoved_of_none htable, TileKey.moved, if_neg hlayer]
    exact h
  | some table =>
    rw [parametersOf_withMoved_of_some htable]
    by_cases hlayer : key.layer = layer
    · rw [TileKey.moved, if_pos hlayer, if_pos (show target = (key.renamed target).layer from rfl), ← hlayer]
      exact h
    · rw [TileKey.moved, if_neg hlayer, if_neg hplace.symm, if_neg (Ne.symm hlayer)]
      exact h

/-- When a layer moves to a free one its parameters move along with its tiles. -/
theorem Mapped.withMoved (h : store.Mapped puts) (hfree : store.layerExists target = false) :
    (store.withMoved layer target).Mapped puts := by
  have hcome : ∀ (key : TileKey) (payload : Payload), (store.withMoved layer target).tiles[key]? = some payload →
      ∃ origin : TileKey, store.tiles[origin]? = some payload ∧ origin.moved layer target = key :=
    fun key payload => (getElem?_withMoved hfree key payload).mp
  refine ⟨fun key id hkey hid => ?_, fun other id parameters hmapped => ?_, fun key payload hpayload => ?_⟩
  · obtain ⟨payload, hpayload⟩ := Table.mem_iff_exists.mp hkey
    obtain ⟨origin, horigin, rfl⟩ := hcome key payload hpayload
    have hmem : origin ∈ store.tiles := Table.mem_iff_exists.mpr ⟨payload, horigin⟩
    refine mem_parametersOf_moved (layer_ne_of_not_exists hfree hmem) (h.covered origin id hmem ?_)
    rw [← hid, TileKey.moved]
    split <;> rfl
  · cases htable : store.parameters[layer]? with
    | none =>
      rw [parametersOf_withMoved_of_none htable] at hmapped
      exact h.mapped other id parameters hmapped
    | some table =>
      rw [parametersOf_withMoved_of_some htable] at hmapped
      split at hmapped
      · exact h.mapped layer id parameters hmapped
      · split at hmapped
        · simp at hmapped
        · exact h.mapped other id parameters hmapped
  · obtain ⟨origin, horigin, rfl⟩ := hcome key payload hpayload
    obtain ⟨tile, hput, hkey, htile⟩ := h.stored origin payload horigin
    refine ⟨tile, hput, ?_, htile⟩
    rw [← hkey]
    unfold TileKey.moved
    split <;> rfl

/-- Whether a layer is renamed or not, the parameters of all tiles are mapped. -/
theorem Mapped.rename (h : store.Mapped puts) (layer target : String) :
    ((alone (.rename layer target)).onState store).2.Mapped puts := by
  rcases store.after_rename_cases layer target with hsame | ⟨hfree, hmoved⟩
  · rw [hsame]
    exact h
  · rw [hmoved]
    exact h.withMoved hfree

/-! ## Runs -/

/-- Every call keeps what is known of a store. -/
theorem Mapped.alone (h : store.Mapped puts) (call : StoreCall) (hput : ∀ tile : Tile, call = .put tile → puts tile) :
    ((Resident.alone call).onState store).2.Mapped puts := by
  cases call with
  | put tile => exact h.put (hput tile rfl)
  | delete key =>
    refine h.dropTiles (drops_delete key) ?_
    rw [onState_delete, delete]
    cases store.tiles[key]? <;> rfl
  | deleteRange range => exact h.dropTiles (drops_deleteRange range) (by rw [onState_deleteRange]; rfl)
  | deleteLayer layer => exact h.deleteLayer layer
  | deleteGridset layer gridset => exact h.dropTiles (drops_deleteGridset layer gridset) (by rw [onState_deleteGridset]; rfl)
  | deleteParameters layer parameters => exact h.deleteParameters layer parameters
  | rename layer target => exact h.rename layer target
  | clear => exact mapped_empty puts |>.lose (fun _ _ hkey => hkey) (fun _ _ _ hmapped => hmapped) fun _ _ _ _ => rfl
  | get | layerExists | parametersOf | metadata | putMetadata | addListener | removeListener =>
    exact ⟨h.covered, h.mapped, h.stored⟩

/-- The parameters of all tiles are mapped after any calls that put such tiles. -/
theorem Mapped.serve (h : store.Mapped puts) (calls : List StoreCall) (hputs : ∀ tile : Tile, .put tile ∈ calls → puts tile) :
    (Resident.alone.serve calls store).2.Mapped puts :=
  TileStore.serve_keeps (Mapped puts) (fun call hcall _ hstore => hstore.alone call fun tile heq => hputs tile (heq ▸ hcall)) h

/-- After any calls of an empty store, every tile that it holds with parameters has their identifier mapped in its layer. If
every tile was put with the identifier of its parameters, and no two of them had one identifier for different parameters, then
what is mapped are the parameters of the very tile that was put. -/
theorem parameters_mapped (calls : List StoreCall) (key : TileKey) (payload : Payload) (id : String)
    (hstored : (Resident.alone.serve calls .empty).2.tiles[key]? = some payload) (hid : key.parameters = some id) :
    id ∈ (Resident.alone.serve calls .empty).2.parametersOf key.layer ∧
      ((∀ tile : Tile, .put tile ∈ calls → tile.parametersId = tile.parameters.identifier) →
        (∀ tile tile' : Tile, .put tile ∈ calls → .put tile' ∈ calls →
          tile.parameters.identifier = tile'.parameters.identifier → tile.parameters = tile'.parameters) →
        ∃ tile : Tile, .put tile ∈ calls ∧ tile.key.renamed key.layer = key ∧ tile.payload? = some payload ∧
          ((Resident.alone.serve calls .empty).2.parametersOf key.layer)[id]? = some tile.parameters) := by
  have h := (mapped_empty fun tile => .put tile ∈ calls).serve calls fun _ htile => htile
  have hcovered := h.covered key id (Table.mem_iff_exists.mpr ⟨payload, hstored⟩) hid
  refine ⟨hcovered, fun hcomputed hcollision => ?_⟩
  obtain ⟨tile, hput, hkey, hpayload⟩ := h.stored key payload hstored
  obtain ⟨parameters, hmapped⟩ := Table.mem_iff_exists.mp hcovered
  obtain ⟨first, hfirst, hfirstId, rfl⟩ := h.mapped key.layer id parameters hmapped
  have htileId : tile.parametersId = some id := (congrArg TileKey.parameters hkey).trans hid
  refine ⟨tile, hput, hkey, hpayload, hmapped.trans (congrArg some (hcollision first tile hfirst hput ?_))⟩
  rw [← hcomputed first hfirst, ← hcomputed tile hput, hfirstId, htileId]

/-- Two tiles of one place in different styles are moved to another layer, and one of the styles is deleted there. -/
theorem parameters_mapped_after_rename :
    let style (name : String) : Tile :=
      (Tile.request "roads" 1 2 3 "world" "png" (.ofList [("STYLES", name)])).withBlob (some ⟨#[7]⟩)
    let night := (style "night").parametersId.getD ""
    let day := (style "day").parametersId.getD ""
    let calls : List StoreCall :=
      [.put (style "night"), .put (style "day"), .rename "roads" "streets", .deleteParameters "streets" day]
    ((alone.serve calls .empty).2.parametersOf "streets")[night]? = some (style "night").parameters := by
  intro style night day calls
  have hdiffer : (style "night").parametersId ≠ (style "day").parametersId := by decide +kernel
  have hputs : ∀ tile : Tile, .put tile ∈ calls → tile = style "night" ∨ tile = style "day" := by
    intro tile htile
    simpa [calls] using htile
  obtain ⟨payload, hstored⟩ : ∃ payload : Payload,
      (alone.serve calls .empty).2.tiles[(style "night").key.renamed "streets"]? = some payload := by
    rw [← Option.isSome_iff_exists]
    decide +kernel
  have hmapped := parameters_mapped calls ((style "night").key.renamed "streets") payload night hstored (by decide +kernel)
  obtain ⟨tile, hput, hkey, -, hparameters⟩ := hmapped.2
    (fun tile htile => by rcases hputs tile htile with rfl | rfl <;> rfl)
    (fun tile tile' htile htile' hsame => by
      rcases hputs tile htile with rfl | rfl <;> rcases hputs tile' htile' with rfl | rfl
      · rfl
      · exact absurd hsame hdiffer
      · exact absurd hsame hdiffer.symm
      · rfl)
  rcases hputs tile hput with rfl | rfl
  · exact hparameters
  · exact absurd (congrArg TileKey.parameters hkey).symm hdiffer

end Resident

end TileDepot
