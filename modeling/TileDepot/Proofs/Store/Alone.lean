import TileDepot.Proofs.Events
import TileDepot.Proofs.View

/-!
# Resident stores by themselves

A resident store to which nobody listens is a state of its own, and what a call does to it is known by its look-ups. Deletions
drop the tiles of a kind and say whether there were any; a put adds one tile; a rename leaves the tiles of other layers where
they are. How often a store was read makes no difference to any answer.
-/

namespace TileDepot

/-- The tiles that a call may change. -/
def StoreCall.concerns : StoreCall → TileKey → Bool
  | .put tile, key => key == tile.key
  | .delete doomed, key => key == doomed
  | .deleteRange range, key => range.contains key
  | .deleteLayer layer, key | .rename layer _, key => key.layer == layer
  | .deleteGridset layer gridset, key => key.layer == layer && key.gridset == gridset
  | .deleteParameters layer parameters, key => key.layer == layer && key.parameters == some parameters
  | .clear, _ => true
  | _, _ => false

namespace Resident

variable {store store' : Resident} {call : StoreCall} {key : TileKey} {payload : Payload}

/-- A resident store by itself. -/
def alone : TileStore Resident := tileStore .whole unheard

/-- A store that nobody listens to answers a call and changes. -/
theorem onState_tileStore_unheard {σ : Type} (cell : Cell σ Resident) (call : StoreCall) (state : σ) :
    (tileStore cell unheard call).onState state = match (cell.read state).answer call with
      | .error error => (.error error, state)
      | .ok (value, _, store) => (.ok value, cell.write store state) := by
  unfold tileStore
  rw [Run.onState_ofState]
  cases (cell.read state).answer call with
  | error error => rfl
  | ok outcome => exact congrArg (Prod.mk _) (tell_unheard _ _ _)

/-- A store that stands alone does the same. -/
theorem onState_alone (store : Resident) (call : StoreCall) :
    (alone call).onState store = match store.answer call with
      | .error error => (.error error, store)
      | .ok (value, _, store') => (.ok value, store') :=
  onState_tileStore_unheard .whole call store

/-- A call that fails changes nothing. -/
theorem alone_of_error {store : Resident} {call : StoreCall} {error : Error}
    (h : ((alone call).onState store).1 = .error error) : ((alone call).onState store).2 = store := by
  rw [onState_alone] at *
  cases hanswer : store.answer call with
  | error _ => rfl
  | ok outcome =>
    rw [hanswer] at h
    cases h

/-- The first of two states is changed as it would be by itself. -/
theorem onState_first {σ : Type} (call : StoreCall) (store : Resident) (other : σ) :
    (tileStore .first unheard call).onState (store, other) =
      (((alone call).onState store).1, ((alone call).onState store).2, other) := by
  rw [onState_tileStore_unheard, onState_alone, show Cell.first.read (store, other) = store from rfl]
  cases store.answer call <;> rfl

/-- So is the second. -/
theorem onState_second {σ : Type} (call : StoreCall) (other : σ) (store : Resident) :
    (tileStore .second unheard call).onState (other, store) =
      (((alone call).onState store).1, other, ((alone call).onState store).2) := by
  rw [onState_tileStore_unheard, onState_alone, show Cell.second.read (other, store) = store from rfl]
  cases store.answer call <;> rfl

/-- A tile is read, and the read is counted. -/
theorem onState_get (store : Resident) (request : Tile) :
    (alone (.get request)).onState store = (.ok store.tiles[request.key]?, { store with reads := store.reads + 1 }) :=
  onState_alone store (.get request)

/-- A tile is put with its payload, if it has one. -/
theorem onState_put (store : Resident) (tile : Tile) : (alone (.put tile)).onState store = match tile.payload? with
    | none => (.error (.invalidArgument s!"{tile.text} has no blob"), store)
    | some payload => (.ok (), { store with
        tiles := store.tiles.insert tile.key payload
        parameters := withParameters store.parameters tile
        writes := store.writes + 1 }) := by
  rw [onState_alone]
  simp only [answer, put]
  cases tile.payload? <;> rfl

theorem onState_delete (store : Resident) (key : TileKey) :
    (alone (.delete key)).onState store = (.ok (store.delete key).1.isSome, (store.delete key).2) :=
  onState_alone store (.delete key)

/-- The tiles of a range are dropped. -/
theorem onState_deleteRange (store : Resident) (range : TileRange) : (alone (.deleteRange range)).onState store =
    (.ok !(store.deleteRange range).1.isEmpty, (store.dropTiles range.contains).2) :=
  onState_alone store (.deleteRange range)

theorem onState_deleteLayer (store : Resident) (layer : String) : (alone (.deleteLayer layer)).onState store =
    (.ok (store.deleteLayer layer).1, (store.deleteLayer layer).2) :=
  onState_alone store (.deleteLayer layer)

theorem onState_deleteGridset (store : Resident) (layer gridset : String) :
    (alone (.deleteGridset layer gridset)).onState store =
      (.ok (store.deleteGridset layer gridset).1, (store.deleteGridset layer gridset).2) :=
  onState_alone store (.deleteGridset layer gridset)

theorem onState_deleteParameters (store : Resident) (layer parameters : String) :
    (alone (.deleteParameters layer parameters)).onState store =
      (.ok (store.deleteParameters layer parameters).1, (store.deleteParameters layer parameters).2) :=
  onState_alone store (.deleteParameters layer parameters)

/-- A layer is renamed, unless the store refuses. -/
theorem onState_rename (store : Resident) (layer target : String) :
    (alone (.rename layer target)).onState store = match store.rename layer target with
      | .error error => (.error error, store)
      | .ok (moved, store') => (.ok moved, store') := by
  rw [onState_alone]
  simp only [answer]
  cases store.rename layer target <;> rfl

/-- What a store by itself does with a renaming. -/
theorem onState_rename_cases (store : Resident) (layer target : String) :
    (store.layerExists target = true ∧
      (alone (.rename layer target)).onState store =
        (.error (.storage s!"cannot rename {layer} to {target}: target layer exists"), store)) ∨
      (store.layerExists target = false ∧ store.Bare layer ∧
        (alone (.rename layer target)).onState store = (.ok false, store)) ∨
      (store.layerExists target = false ∧ ¬store.Bare layer ∧
        (alone (.rename layer target)).onState store = (.ok true, store.withMoved layer target)) := by
  rw [onState_rename]
  rcases store.rename_cases layer target with ⟨hexists, hrun⟩ | ⟨hfree, hbare, hrun⟩ | ⟨hfree, hbare, hrun⟩
  · exact Or.inl ⟨hexists, by rw [hrun]⟩
  · exact Or.inr (Or.inl ⟨hfree, hbare, by rw [hrun]⟩)
  · exact Or.inr (Or.inr ⟨hfree, hbare, by rw [hrun]⟩)

/-- A rename moves a layer to one that does not exist, or leaves the store as it is. -/
theorem after_rename_cases (store : Resident) (layer target : String) :
    ((alone (.rename layer target)).onState store).2 = store ∨
      store.layerExists target = false ∧ ((alone (.rename layer target)).onState store).2 = store.withMoved layer target := by
  rcases store.onState_rename_cases layer target with ⟨-, hrun⟩ | ⟨-, -, hrun⟩ | ⟨hfree, -, hrun⟩
  all_goals rw [hrun]
  · exact Or.inl rfl
  · exact Or.inl rfl
  · exact Or.inr ⟨hfree, rfl⟩

/-! ## Reads -/

/-- A store that differs from another at most in how often it was read. -/
def SameButReads (store store' : Resident) : Prop := store' = { store with reads := store'.reads }

theorem SameButReads.refl (store : Resident) : SameButReads store store := rfl

/-- Stores that are the same but for reads, one after the other, are so at the ends. -/
theorem SameButReads.trans {store'' : Resident} (h : SameButReads store store') (h' : SameButReads store' store'') :
    SameButReads store store'' := by
  unfold SameButReads at *
  rw [h', h]

/-- A look into a store changes nothing else. -/
theorem sameButReads_read (store : Resident) (reads : Nat) : SameButReads store { store with reads } := rfl

/-- A layer is renamed alike, whatever the store was read for. -/
theorem rename_read (store : Resident) (reads : Nat) (layer target : String) :
    ({ store with reads } : Resident).rename layer target =
      (store.rename layer target).map fun (moved, store) => (moved, { store with reads }) := by
  have hexists : ({ store with reads } : Resident).layerExists target = store.layerExists target := rfl
  unfold rename
  rw [hexists]
  split
  · rfl
  · dsimp only
    split <;> rfl

/-- Stores that differ in nothing else answer alike, and differ in nothing else afterwards. -/
theorem SameButReads.alone (h : SameButReads store store') (call : StoreCall) :
    ((Resident.alone call).onState store').1 = ((Resident.alone call).onState store).1 ∧
      SameButReads ((Resident.alone call).onState store).2 ((Resident.alone call).onState store').2 := by
  rw [h]
  generalize store'.reads = reads
  cases call with
  | put tile =>
    rw [onState_put, onState_put]
    cases tile.payload? <;> exact ⟨rfl, rfl⟩
  | rename layer target =>
    rw [onState_rename, onState_rename, rename_read]
    have hkept : ∀ outcome, store.rename layer target = .ok outcome → SameButReads outcome.2 { outcome.2 with reads } :=
      fun _ _ => rfl
    cases hrename : store.rename layer target with
    | error error => exact ⟨rfl, rfl⟩
    | ok outcome => exact ⟨rfl, hkept outcome hrename⟩
  | delete key =>
    rw [onState_delete, onState_delete]
    unfold delete
    cases store.tiles[key]? <;> exact ⟨rfl, rfl⟩
  | deleteRange range =>
    rw [onState_deleteRange, onState_deleteRange]
    exact ⟨rfl, rfl⟩
  | deleteLayer layer =>
    rw [onState_deleteLayer, onState_deleteLayer]
    exact ⟨rfl, rfl⟩
  | deleteGridset layer gridset =>
    rw [onState_deleteGridset, onState_deleteGridset]
    exact ⟨rfl, rfl⟩
  | deleteParameters layer parameters =>
    rw [onState_deleteParameters, onState_deleteParameters]
    exact ⟨rfl, rfl⟩
  | get | layerExists | parametersOf | metadata | putMetadata
    | addListener | removeListener | clear => exact ⟨rfl, rfl⟩

/-! ## Deletions -/

/-- A run that drops the tiles that are doomed, with the metadata of some layers, and says whether there were such tiles. -/
structure Drops (doomed : TileKey → Bool) (forgotten : String → Bool) (run : Run Resident Bool) : Prop where
  found : ∀ store : Resident, (run.onState store).1 = .ok (store.tiles.keys.any doomed)
  tiles : ∀ (store : Resident) (key : TileKey),
    (run.onState store).2.tiles[key]? = if doomed key then none else store.tiles[key]?
  metadata : ∀ (store : Resident) (layer : String),
    (run.onState store).2.metadata[layer]? = if forgotten layer then none else store.metadata[layer]?

/-- Some tile of a kind is stored when one with a payload is. -/
theorem any_keys {tiles : Std.ExtTreeMap TileKey Payload} {doomed : TileKey → Bool} :
    tiles.keys.any doomed = true ↔ ∃ (key : TileKey) (payload : Payload), tiles[key]? = some payload ∧ doomed key = true := by
  simp only [List.any_eq_true, Std.ExtTreeMap.mem_keys, Table.mem_iff_exists]
  constructor
  · rintro ⟨key, ⟨payload, hpayload⟩, hdoomed⟩
    exact ⟨key, payload, hpayload, hdoomed⟩
  · rintro ⟨key, payload, hpayload, hdoomed⟩
    exact ⟨key, ⟨payload, hpayload⟩, hdoomed⟩

/-- What is found in a table without the doomed keys. -/
theorem getElem?_filter_not {β : Type} (table : Std.ExtTreeMap TileKey β) (doomed : TileKey → Bool) (key : TileKey) :
    (table.filter fun key _ => !doomed key)[key]? = if doomed key then none else table[key]? := by
  rw [Std.ExtTreeMap.getElem?_filter']
  cases table[key]? <;> cases doomed key <;> rfl

/-- Tiles are dropped exactly if there are some that are doomed. -/
theorem dropTiles_pos (store : Resident) (doomed : TileKey → Bool) :
    decide ((store.dropTiles doomed).1 > 0) = store.tiles.keys.any doomed := by
  have hle : (store.tiles.filter fun key _ => !doomed key).size ≤ store.tiles.size := Std.ExtTreeMap.size_filter_le_size
  have hall : (store.tiles.filter fun key _ => !doomed key).size = store.tiles.size ↔
      ∀ key ∈ store.tiles, doomed key = false := by
    rw [Std.ExtTreeMap.size_filter_eq_size_iff]
    simp
  have hany : store.tiles.keys.any doomed = false ↔ ∀ key ∈ store.tiles, doomed key = false := by
    simp [List.any_eq_false, Std.ExtTreeMap.mem_keys]
  change decide (store.tiles.size - (store.tiles.filter fun key _ => !doomed key).size > 0) = _
  cases h : store.tiles.keys.any doomed with
  | false =>
    rw [hall.mpr (hany.mp h)]
    simp
  | true =>
    have hne : (store.tiles.filter fun key _ => !doomed key).size ≠ store.tiles.size := by
      intro heq
      rw [hany.mpr (hall.mp heq)] at h
      cases h
    exact decide_eq_true (by omega)

/-- To delete a tile drops it and no metadata. -/
theorem drops_delete (doomed : TileKey) :
    Drops (fun key => key == doomed) (fun _ => false) (alone (.delete doomed)) := by
  have hany : ∀ store : Resident, store.tiles.keys.any (fun key => key == doomed) = store.tiles[doomed]?.isSome := by
    intro store
    rw [Bool.eq_iff_iff, any_keys, Option.isSome_iff_exists]
    simp only [beq_iff_eq]
    constructor
    · rintro ⟨key, payload, hpayload, rfl⟩
      exact ⟨payload, hpayload⟩
    · rintro ⟨payload, hpayload⟩
      exact ⟨doomed, payload, hpayload, rfl⟩
  refine ⟨fun store => ?_, fun store key => ?_, fun store layer => ?_⟩
  all_goals rw [onState_delete, delete]
  · rw [hany]
    cases store.tiles[doomed]? <;> rfl
  · by_cases heq : key = doomed
    · subst heq
      rw [if_pos (beq_self_eq_true key)]
      cases h : store.tiles[key]? with
      | none => exact h
      | some payload => exact (Table.getElem?_erase store.tiles key key).trans (if_pos rfl)
    · rw [if_neg (mt beq_iff_eq.mp heq)]
      cases store.tiles[doomed]? with
      | none => rfl
      | some payload => exact (Table.getElem?_erase store.tiles doomed key).trans (if_neg fun h => heq h.symm)
  · cases store.tiles[doomed]? <;> rfl

/-- To delete a range drops its tiles and no metadata. -/
theorem drops_deleteRange (range : TileRange) : Drops range.contains (fun _ => false) (alone (.deleteRange range)) := by
  refine ⟨fun store => ?_, fun store key => ?_, fun store layer => ?_⟩
  all_goals rw [onState_deleteRange]
  · refine congrArg Except.ok ?_
    rw [Bool.eq_iff_iff, any_keys, Bool.not_eq_true', deleteRange, List.isEmpty_eq_false_iff_exists_mem]
    constructor
    · rintro ⟨event, hevent⟩
      obtain ⟨⟨key, payload⟩, hentry, -⟩ := List.mem_map.mp hevent
      have hkey := Table.mem_toList.mp hentry
      rw [Std.ExtTreeMap.getElem?_filter', Option.filter_eq_some_iff] at hkey
      exact ⟨key, payload, hkey⟩
    · rintro ⟨key, payload, hpayload, hcontains⟩
      refine ⟨.deleted key payload.size, List.mem_map.mpr ⟨(key, payload), Table.mem_toList.mpr ?_, rfl⟩⟩
      rw [Std.ExtTreeMap.getElem?_filter', Option.filter_eq_some_iff]
      exact ⟨hpayload, hcontains⟩
  · exact getElem?_filter_not store.tiles range.contains key
  · rfl

/-- A run that drops all doomed tiles at once. -/
theorem drops_of_dropTiles {doomed : TileKey → Bool} {forgotten : String → Bool} {run : Run Resident Bool}
    (h : ∀ store : Resident, ∃ store' : Resident,
      run.onState store = (.ok (decide ((store.dropTiles doomed).1 > 0)), store') ∧
        store'.tiles = (store.dropTiles doomed).2.tiles ∧
        ∀ layer : String, store'.metadata[layer]? = if forgotten layer then none else store.metadata[layer]?) :
    Drops doomed forgotten run := by
  refine ⟨fun store => ?_, fun store key => ?_, fun store layer => ?_⟩
  all_goals
    obtain ⟨store', hrun, htiles, hmetadata⟩ := h store
    rw [hrun]
  · exact congrArg Except.ok (store.dropTiles_pos doomed)
  · exact (congrArg (·[key]?) htiles).trans (getElem?_filter_not store.tiles doomed key)
  · exact hmetadata layer

/-- To delete a layer drops its tiles and its metadata. -/
theorem drops_deleteLayer (layer : String) :
    Drops (fun key => key.layer == layer) (fun other => other == layer) (alone (.deleteLayer layer)) := by
  refine drops_of_dropTiles fun store => ⟨_, onState_deleteLayer store layer, rfl, fun other => ?_⟩
  exact (Table.getElem?_erase store.metadata layer other).trans (if_congr (eq_comm.trans beq_iff_eq.symm) rfl rfl)

/-- To delete a layer in a gridset drops its tiles there and no metadata. -/
theorem drops_deleteGridset (layer gridset : String) :
    Drops (fun key => key.layer == layer && key.gridset == gridset) (fun _ => false) (alone (.deleteGridset layer gridset)) :=
  drops_of_dropTiles fun store => ⟨_, onState_deleteGridset store layer gridset, rfl, fun _ => rfl⟩

/-- To delete parameters drops the tiles of the layer with them and no metadata. -/
theorem drops_deleteParameters (layer parameters : String) :
    Drops (fun key => key.layer == layer && key.parameters == some parameters) (fun _ => false)
      (alone (.deleteParameters layer parameters)) :=
  drops_of_dropTiles fun store => ⟨_, onState_deleteParameters store layer parameters, rfl, fun _ => rfl⟩

/-! ## Tiles that stay -/

/-- A tile that a call does not concern stays as it is. -/
theorem alone_keeps (store : Resident) {call : StoreCall} (hconcerns : call.concerns key = false)
    (hkey : store.tiles[key]? = some payload) : ((alone call).onState store).2.tiles[key]? = some payload := by
  have hdrop : ∀ {doomed : TileKey → Bool} {forgotten : String → Bool} {run : Run Resident Bool},
      Drops doomed forgotten run → doomed key = false → (run.onState store).2.tiles[key]? = some payload := by
    intro doomed forgotten run h hdoomed
    rw [h.tiles, hdoomed]
    exact hkey
  cases call with
  | get request => exact hkey
  | put tile =>
    rw [onState_put]
    cases tile.payload? with
    | none => exact hkey
    | some stored =>
      have hne : tile.key ≠ key := fun heq => absurd (beq_iff_eq.mpr heq.symm) (Bool.eq_false_iff.mp hconcerns)
      exact ((Table.getElem?_insert store.tiles tile.key key stored).trans (if_neg hne)).trans hkey
  | delete doomed => exact hdrop (drops_delete doomed) hconcerns
  | deleteRange range => exact hdrop (drops_deleteRange range) hconcerns
  | deleteLayer layer => exact hdrop (drops_deleteLayer layer) hconcerns
  | deleteGridset layer gridset => exact hdrop (drops_deleteGridset layer gridset) hconcerns
  | deleteParameters layer parameters => exact hdrop (drops_deleteParameters layer parameters) hconcerns
  | rename layer target =>
    have hlayer : key.layer ≠ layer := fun heq => absurd (beq_iff_eq.mpr heq) (Bool.eq_false_iff.mp hconcerns)
    rcases store.after_rename_cases layer target with hsame | ⟨htarget, hmoved⟩
    · rw [hsame]
      exact hkey
    · rw [hmoved]
      refine (getElem?_moveTiles (fun other hother => layer_ne_of_not_exists htarget hother) key payload).mpr ⟨key, hkey, ?_⟩
      rw [TileKey.moved, if_neg hlayer]
  | layerExists | parametersOf | metadata | putMetadata | addListener | removeListener => exact hkey
  | clear => cases hconcerns

/-! ## Stores with a companion -/

variable {γ α : Type}

/-- A run on a companion and a store that answers as a run on the store alone does, and does to the store what that one does;
the two stay related. -/
def Imitates (related : γ → Resident → Prop) (run : Run (γ × Resident) α) (plain : Run Resident α) : Prop :=
  ∀ (companion : γ) (store : Resident), related companion store → ∃ (companion' : γ) (store' : Resident),
    run.onState (companion, store) = ((plain.onState store).1, companion', store') ∧
      SameButReads store' (plain.onState store).2 ∧ related companion' store'

/-- Calls of a companion and a store, of which some are for the companion alone, give for the others the outcomes that the store
alone would give. -/
theorem serve_imitates {related : γ → Resident → Prop} {served : TileStore (γ × Resident)} {silent : StoreCall → Bool}
    (calls : List StoreCall)
    (hcalls : ∀ call ∈ calls, silent call = false → Imitates related (served call) (Resident.alone call))
    (hsilent : ∀ call ∈ calls, silent call = true → ∀ (companion : γ) (store : Resident), related companion store →
      ∃ companion' : γ, ((served call).onState (companion, store)).2 = (companion', store) ∧ related companion' store) :
    ∀ (companion : γ) (store plain : Resident), related companion store → SameButReads store plain →
      ((served.serve calls (companion, store)).1.filter fun outcome => !silent outcome.call) =
          (Resident.alone.serve (calls.filter fun call => !silent call) plain).1 ∧
        related (served.serve calls (companion, store)).2.1 (served.serve calls (companion, store)).2.2 := by
  induction calls with
  | nil => intro companion store plain h _; exact ⟨rfl, h⟩
  | cons call calls ih =>
    intro companion store plain h hsame
    have hrest := ih (fun other hother => hcalls other (List.mem_cons_of_mem _ hother))
      (fun other hother => hsilent other (List.mem_cons_of_mem _ hother))
    rw [TileStore.serve_cons]
    cases hcall : silent call with
    | true =>
      obtain ⟨companion', hrun, hrelated⟩ := hsilent call List.mem_cons_self hcall companion store h
      rw [hrun, List.filter_cons_of_neg (by rw [Outcome.of, hcall]; decide), List.filter_cons_of_neg (by rw [hcall]; decide)]
      exact hrest companion' store plain hrelated hsame
    | false =>
      obtain ⟨companion', store', hrun, hafter, hrelated⟩ := hcalls call List.mem_cons_self hcall companion store h
      obtain ⟨hanswer, hsame'⟩ := hsame.alone call
      obtain ⟨houtcomes, hrelated'⟩ := hrest companion' store' _ hrelated (hafter.trans hsame')
      rw [hrun, List.filter_cons_of_pos (by rw [Outcome.of, hcall]; rfl), List.filter_cons_of_pos (by rw [hcall]; rfl),
        TileStore.serve_cons, houtcomes, hanswer]
      exact ⟨rfl, hrelated'⟩

end Resident

end TileDepot
