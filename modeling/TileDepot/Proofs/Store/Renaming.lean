import TileDepot.Proofs.Store.Tiers

/-!
# Layers renamed in two tiers

Each tier decides by itself whether it moves a layer. The front store goes first, and knows of layers only by what it holds: it
may move a layer to a name that the backing store refuses, and it leaves notes behind where it has no tiles to move. Where one
tier moves the layer and the other does not, the front store stays within its backing store only if it holds nothing that
tells the two apart.
-/

namespace TileDepot

/-- A call that only looks something up: a tile, or a note on a layer. -/
def StoreCall.isLookUp : StoreCall → Bool
  | .get _ | .metadata .. => true
  | _ => false

/-- A table of tiles in which a layer has been moved to the place of another one, where nothing was. -/
def Table.Moved {β : Type} (layer target : String) (table table' : Std.ExtTreeMap TileKey β) : Prop :=
  ∀ key : TileKey, table'[key]? =
    if key.layer = target then table[key.renamed layer]? else if key.layer = layer then none else table[key]?

namespace Resident

variable {store front backing : Resident} {layer target : String}

/-- What a store answers when it is asked to rename a layer: whether it moves anything, unless it refuses. -/
def renameAnswer (store : Resident) (layer target : String) : Except Error Bool :=
  ((alone (.rename layer target)).onState store).1

/-- What a store holds of a layer, another one holds under another name. -/
structure HeldAs (front backing : Resident) (layer target : String) : Prop where
  tiles : ∀ (key : TileKey) (payload : Payload), front.tiles[key]? = some payload → key.layer = layer →
    backing.tiles[key.renamed target]? = some payload
  notes : ∀ key value : String, front.metadataAt layer key = some value → backing.metadataAt target key = some value

/-- A layer whose renaming does not tell a front store from its backing store: what the front store alone moves, the backing
store holds under the new name already; and what the backing store alone moves, the front store has no notes on. -/
structure RenamesAlike (front backing : Resident) (layer target : String) : Prop where
  ahead : front.renameAnswer layer target = .ok true → backing.renameAnswer layer target ≠ .ok true →
    HeldAs front backing layer target
  behind : front.renameAnswer layer target = .ok false → backing.renameAnswer layer target = .ok true →
    ∀ key : String, front.metadataAt layer key = none

/-! ## One store -/

theorem onState_rename_of_error {error : Error} (h : store.renameAnswer layer target = .error error) :
    (alone (.rename layer target)).onState store = (.error error, store) := by
  unfold renameAnswer at h
  rcases store.onState_rename_cases layer target with ⟨-, hrun⟩ | ⟨-, -, hrun⟩ | ⟨-, -, hrun⟩
  all_goals rw [hrun] at h; cases h
  exact hrun

/-- A store that does not move the layer stays as it is. -/
theorem onState_rename_of_not_moved (h : store.renameAnswer layer target ≠ .ok true) :
    ((alone (.rename layer target)).onState store).2 = store := by
  unfold renameAnswer at h
  rcases store.onState_rename_cases layer target with ⟨-, hrun⟩ | ⟨-, -, hrun⟩ | ⟨-, -, hrun⟩
  all_goals rw [hrun] at h ⊢
  exact absurd rfl h

/-- A store that moves nothing has no tiles of the layer. -/
theorem onState_rename_of_false (h : store.renameAnswer layer target = .ok false) :
    store.layerExists target = false ∧ (∀ key ∈ store.tiles, key.layer ≠ layer) ∧
      (alone (.rename layer target)).onState store = (.ok false, store) := by
  unfold renameAnswer at h
  rcases store.onState_rename_cases layer target with ⟨-, hrun⟩ | ⟨hfree, hbare, hrun⟩ | ⟨-, -, hrun⟩
  · rw [hrun] at h
    cases h
  · exact ⟨hfree, hbare.1, hrun⟩
  · rw [hrun] at h
    cases h

theorem onState_rename_of_true (h : store.renameAnswer layer target = .ok true) :
    store.layerExists target = false ∧
      (alone (.rename layer target)).onState store = (.ok true, store.withMoved layer target) := by
  unfold renameAnswer at h
  rcases store.onState_rename_cases layer target with ⟨-, hrun⟩ | ⟨-, -, hrun⟩ | ⟨hfree, -, hrun⟩
  · rw [hrun] at h
    cases h
  · rw [hrun] at h
    cases h
  · exact ⟨hfree, hrun⟩

/-- An entry moved to a free place is found there, and nowhere else. -/
theorem getElem?_moveEntry {β : Type} {table : Std.ExtTreeMap String β} {layer target : String} (h : table[target]? = none)
    (other : String) :
    (moveEntry table layer target)[other]? =
      if other = target then table[layer]? else if other = layer then none else table[other]? := by
  unfold moveEntry
  cases hlayer : table[layer]? with
  | none =>
    dsimp only
    by_cases htarget : other = target
    · rw [if_pos htarget, htarget, h]
    · rw [if_neg htarget]
      by_cases hsame : other = layer
      · rw [if_pos hsame, hsame, hlayer]
      · rw [if_neg hsame]
  | some entry =>
    dsimp only
    rw [Table.getElem?_insert, Table.getElem?_erase]
    exact if_congr eq_comm rfl (if_congr eq_comm rfl rfl)

/-- Of a layer that does not exist there is no metadata. -/
theorem metadata_of_not_exists (h : store.layerExists target = false) : store.metadata[target]? = none :=
  Std.ExtTreeMap.getElem?_eq_none (layerExists_eq_false_iff.mp h).2

theorem metadataAt_of_not_exists (h : store.layerExists target = false) (key : String) : store.metadataAt target key = none := by
  rw [metadataAt, metadata_of_not_exists h, Option.bind_none]

/-- Every tile is found where it has been moved. -/
theorem getElem?_withMoved (h : store.layerExists target = false) (key : TileKey) (payload : Payload) :
    (store.withMoved layer target).tiles[key]? = some payload ↔
      ∃ origin : TileKey, store.tiles[origin]? = some payload ∧ origin.moved layer target = key :=
  getElem?_moveTiles (fun _ hkey => layer_ne_of_not_exists h hkey) key payload

/-- Of a layer that does not exist there are no tiles either. -/
theorem getElem?_of_not_exists (h : store.layerExists layer = false) {key : TileKey} (hkey : key.layer = layer) :
    store.tiles[key]? = none :=
  Std.ExtTreeMap.getElem?_eq_none fun hmem => layer_ne_of_not_exists h hmem hkey

/-- Where there are no tiles of a layer, none need be moved. -/
theorem moved_of_bare (hfree : store.layerExists target = false) (hbare : store.Bare layer) :
    Table.Moved layer target store.tiles store.tiles := by
  have hnone : ∀ key : TileKey, key.layer = layer → store.tiles[key]? = none := fun key hkey =>
    Std.ExtTreeMap.getElem?_eq_none fun hmem => hbare.1 key hmem hkey
  intro key
  split
  · rename_i hkey
    rw [getElem?_of_not_exists hfree hkey, hnone (key.renamed layer) rfl]
  · split
    · rename_i hkey
      exact hnone key hkey
    · rfl

/-- The tiles of the other layer are those that have been moved there. -/
theorem moved_withMoved (hfree : store.layerExists target = false) :
    Table.Moved layer target store.tiles (store.withMoved layer target).tiles := by
  refine fun key => Option.ext fun payload => ?_
  rw [getElem?_withMoved hfree]
  constructor
  · rintro ⟨origin, hpayload, rfl⟩
    unfold TileKey.moved
    split
    · rename_i hlayer
      refine (if_pos rfl).trans (Eq.trans ?_ hpayload)
      rw [← hlayer]
      rfl
    · have htarget := layer_ne_of_not_exists hfree (Table.mem_iff_exists.mpr ⟨payload, hpayload⟩)
      exact (if_neg htarget).trans hpayload
  · intro hkey
    split at hkey
    · rename_i htarget
      refine ⟨key.renamed layer, hkey, (if_pos rfl).trans ?_⟩
      rw [← htarget]
      rfl
    · split at hkey
      · cases hkey
      · rename_i hlayer
        exact ⟨key, hkey, if_neg hlayer⟩

/-- Every note is found where it has been moved. -/
theorem metadataAt_withMoved (h : store.layerExists target = false) (other key : String) :
    (store.withMoved layer target).metadataAt other key =
      if other = target then store.metadataAt layer key else if other = layer then none else store.metadataAt other key := by
  unfold metadataAt
  change ((moveEntry store.metadata layer target)[other]?).bind _ = _
  rw [getElem?_moveEntry (metadata_of_not_exists h)]
  split
  · rfl
  · split <;> rfl

/-! ## A store within another one -/

/-- A layer moved in both stores. -/
theorem Within.withMoved (h : Within front backing) (hfront : front.layerExists target = false)
    (hbacking : backing.layerExists target = false) :
    Within (front.withMoved layer target) (backing.withMoved layer target) := by
  refine ⟨fun key payload hkey => ?_, fun other key value hvalue => ?_⟩
  · obtain ⟨origin, horigin, hmoved⟩ := (getElem?_withMoved hfront key payload).mp hkey
    exact (getElem?_withMoved hbacking key payload).mpr ⟨origin, h.tiles origin payload horigin, hmoved⟩
  · rw [metadataAt_withMoved hfront] at hvalue
    rw [metadataAt_withMoved hbacking]
    split
    · rename_i htarget
      rw [if_pos htarget] at hvalue
      exact h.notes layer key value hvalue
    · rename_i htarget
      rw [if_neg htarget] at hvalue
      split
      · rename_i hlayer
        rwa [if_pos hlayer] at hvalue
      · rename_i hlayer
        rw [if_neg hlayer] at hvalue
        exact h.notes other key value hvalue

/-- A layer moved in the front store alone. -/
theorem within_withMoved_left_iff (h : Within front backing) (hfront : front.layerExists target = false) :
    Within (front.withMoved layer target) backing ↔ HeldAs front backing layer target := by
  constructor
  · intro hwithin
    refine ⟨fun key payload hkey hlayer => ?_, fun key value hvalue => ?_⟩
    · refine hwithin.tiles _ payload ((getElem?_withMoved hfront _ payload).mpr ⟨key, hkey, ?_⟩)
      rw [TileKey.moved, if_pos hlayer]
    · refine hwithin.notes target key value ?_
      rw [metadataAt_withMoved hfront, if_pos rfl, hvalue]
  · intro hheld
    refine ⟨fun key payload hkey => ?_, fun other key value hvalue => ?_⟩
    · obtain ⟨origin, horigin, rfl⟩ := (getElem?_withMoved hfront key payload).mp hkey
      unfold TileKey.moved
      split
      · rename_i hlayer
        exact hheld.tiles origin payload horigin hlayer
      · exact h.tiles origin payload horigin
    · rw [metadataAt_withMoved hfront] at hvalue
      split at hvalue
      · rename_i htarget
        exact htarget ▸ hheld.notes key value hvalue
      · split at hvalue
        · cases hvalue
        · exact h.notes other key value hvalue

/-- A layer moved in the backing store alone, where the front store has no tiles of it. -/
theorem within_withMoved_right_iff (h : Within front backing) (hfront : front.layerExists target = false)
    (hidle : ∀ key ∈ front.tiles, key.layer ≠ layer) (hbacking : backing.layerExists target = false) :
    Within front (backing.withMoved layer target) ↔ ∀ key : String, front.metadataAt layer key = none := by
  constructor
  · intro hwithin key
    by_cases hsame : layer = target
    · rw [hsame, metadataAt_of_not_exists hfront]
    · refine Option.eq_none_iff_forall_ne_some.mpr fun value hvalue => ?_
      have hmoved := hwithin.notes layer key value hvalue
      rw [metadataAt_withMoved hbacking, if_neg hsame, if_pos rfl] at hmoved
      cases hmoved
  · intro hnone
    refine ⟨fun key payload hkey => ?_, fun other key value hvalue => ?_⟩
    · refine (getElem?_withMoved hbacking key payload).mpr ⟨key, h.tiles key payload hkey, ?_⟩
      rw [TileKey.moved, if_neg (hidle key (Table.mem_iff_exists.mpr ⟨payload, hkey⟩))]
    · have hlayer : other ≠ layer := by
        rintro rfl
        rw [hnone] at hvalue
        cases hvalue
      have htarget : other ≠ target := by
        rintro rfl
        rw [metadataAt_of_not_exists hfront] at hvalue
        cases hvalue
      rw [metadataAt_withMoved hbacking, if_neg htarget, if_neg hlayer]
      exact h.notes other key value hvalue

end Resident

namespace TwoTier

open Resident (alone unheard Within RenamesAlike HeldAs)

variable {front backing : Resident} {layer target : String}

/-- Two tiers, both of them resident stores to which nobody listens. -/
def residents : TileStore (Resident × Resident) :=
  tileStore (Resident.tileStore .first unheard) (Resident.tileStore .second unheard)

/-- Where the front store refuses, the backing store is not asked. -/
theorem onState_rename_of_error {error : Error} (h : front.renameAnswer layer target = .error error) :
    (residents (.rename layer target)).onState (front, backing) = (.error error, front, backing) := by
  have hfront := Resident.onState_first (.rename layer target) front backing
  rw [Resident.onState_rename_of_error h] at hfront
  exact Run.onState_bind_error hfront

/-- A front store that does not refuse leaves the answer to the backing store, unless it has moved the layer itself. -/
theorem onState_rename_of_ok {moved : Bool} (h : front.renameAnswer layer target = .ok moved) :
    (residents (.rename layer target)).onState (front, backing) =
      ((backing.renameAnswer layer target).map (moved || ·),
        ((alone (.rename layer target)).onState front).2, ((alone (.rename layer target)).onState backing).2) := by
  have hfront := Resident.onState_first (.rename layer target) front backing
  rw [show ((alone (.rename layer target)).onState front).1 = .ok moved from h] at hfront
  have hbacking := Resident.onState_second (.rename layer target) ((alone (.rename layer target)).onState front).2 backing
  change (both _ _).onState _ = _
  rw [both, Run.onState_bind_ok hfront]
  unfold Resident.renameAnswer
  cases hanswer : ((alone (.rename layer target)).onState backing).1 with
  | error error =>
    rw [hanswer] at hbacking
    exact Run.onState_bind_error hbacking
  | ok inBacking =>
    rw [hanswer] at hbacking
    exact Run.onState_bind_ok hbacking

/-- The tiers after a renaming that the front store does not refuse: each has done its part. -/
theorem within_renamed_iff (h : Within front backing) {moved : Bool} (hfront : front.renameAnswer layer target = .ok moved) :
    Within ((alone (.rename layer target)).onState front).2 ((alone (.rename layer target)).onState backing).2 ↔
      RenamesAlike front backing layer target := by
  cases moved with
  | false =>
    obtain ⟨hfree, hidle, hrun⟩ := Resident.onState_rename_of_false hfront
    have hbehind : RenamesAlike front backing layer target ↔
        (backing.renameAnswer layer target = .ok true → ∀ key : String, front.metadataAt layer key = none) :=
      ⟨fun halike => halike.behind hfront, fun hnone => ⟨fun heq => (nomatch hfront.symm.trans heq), fun _ => hnone⟩⟩
    rw [hrun, hbehind]
    by_cases hbacking : backing.renameAnswer layer target = .ok true
    · obtain ⟨hfree', hrun'⟩ := Resident.onState_rename_of_true hbacking
      rw [hrun', Resident.within_withMoved_right_iff h hfree hidle hfree']
      exact ⟨fun hnone _ => hnone, fun hnone => hnone hbacking⟩
    · rw [Resident.onState_rename_of_not_moved hbacking]
      exact iff_of_true h fun heq => absurd heq hbacking
  | true =>
    obtain ⟨hfree, hrun⟩ := Resident.onState_rename_of_true hfront
    have hahead : RenamesAlike front backing layer target ↔
        (backing.renameAnswer layer target ≠ .ok true → HeldAs front backing layer target) :=
      ⟨fun halike => halike.ahead hfront, fun hheld => ⟨fun _ => hheld, fun heq => (nomatch hfront.symm.trans heq)⟩⟩
    rw [hrun, hahead]
    by_cases hbacking : backing.renameAnswer layer target = .ok true
    · obtain ⟨hfree', hrun'⟩ := Resident.onState_rename_of_true hbacking
      rw [hrun']
      exact iff_of_true (h.withMoved hfree hfree') fun hne => absurd hbacking hne
    · rw [Resident.onState_rename_of_not_moved hbacking, Resident.within_withMoved_left_iff h hfree]
      exact ⟨fun hheld _ => hheld, fun hheld => hheld hbacking⟩

/-- What a look-up answers: what the front store holds, or else what the backing store holds. -/
theorem onState_get (front backing : Resident) (request : Tile) :
    ((residents (.get request)).onState (front, backing)).1 = .ok (front.tiles[request.key]?.or backing.tiles[request.key]?) := by
  have hfront := Resident.onState_first (.get request) front backing
  rw [Resident.onState_get] at hfront
  change ((get _ _ _).onState _).1 = _
  rw [get, Run.onState_bind_ok hfront]
  cases front.tiles[request.key]? with
  | some payload => rfl
  | none =>
    have hbacking := Resident.onState_second (.get request) { front with reads := front.reads + 1 } backing
    rw [Resident.onState_get] at hbacking
    dsimp only
    rw [Run.onState_bind_ok hbacking]
    cases backing.tiles[request.key]? with
    | none => rfl
    | some payload =>
      dsimp only
      rw [Run.onState_bind_ok (Run.onState_ignoringFailure _ _)]
      rfl

theorem onState_metadata (front backing : Resident) (layer key : String) :
    ((residents (.metadata layer key)).onState (front, backing)).1 =
      .ok ((front.metadataAt layer key).or (backing.metadataAt layer key)) := by
  have hanswer : ∀ store : Resident, (alone (.metadata layer key)).onState store = (.ok (store.metadataAt layer key), store) :=
    fun store => Resident.onState_alone store (.metadata layer key)
  have hfront := Resident.onState_first (.metadata layer key) front backing
  rw [hanswer] at hfront
  change ((metadata _ _ _ _).onState _).1 = _
  rw [metadata, Run.onState_bind_ok hfront]
  cases front.metadataAt layer key with
  | some value => rfl
  | none =>
    have hbacking := Resident.onState_second (.metadata layer key) front backing
    rw [hanswer] at hbacking
    dsimp only
    rw [Run.onState_bind_ok hbacking]
    cases backing.metadataAt layer key with
    | none => rfl
    | some value =>
      dsimp only
      rw [Run.onState_bind_ok (Run.onState_ignoringFailure _ _)]
      rfl

/-- Where the front store is within the backing store, a look-up answers what the backing store holds. -/
theorem lookUp_of_within (h : Within front backing) {call : StoreCall} (hcall : call.isLookUp = true) :
    ((residents call).onState (front, backing)).1 = ((alone call).onState backing).1 := by
  cases call with
  | get request =>
    rw [onState_get, Resident.onState_get]
    cases hkey : front.tiles[request.key]? with
    | none => rfl
    | some payload => rw [h.tiles request.key payload hkey, Option.some_or]
  | metadata layer key =>
    rw [onState_metadata, Resident.onState_alone]
    cases hnote : front.metadataAt layer key with
    | none => rfl
    | some value =>
      change _ = Except.ok (backing.metadataAt layer key)
      rw [h.notes layer key value hnote, Option.some_or]
  | _ => cases hcall

/-- The request for a tile of a key. -/
def requestOf (key : TileKey) : Tile :=
  ⟨key.layer, key.x, key.y, key.z, key.gridset, key.format, ∅, key.parameters, none, 0, 0⟩

/-- A layer that the front store alone has moved makes no difference to look-ups exactly if the backing store holds what was
moved. -/
theorem lookUps_of_ahead_iff (h : Within front backing) (hfree : front.layerExists target = false) :
    (∀ call : StoreCall, call.isLookUp = true → ((residents call).onState (front.withMoved layer target, backing)).1 =
        ((residents call).onState (front, backing)).1) ↔ HeldAs front backing layer target := by
  constructor
  · intro hsame
    refine ⟨fun key payload hkey hlayer => ?_, fun key value hvalue => ?_⟩
    · have hbefore : front.tiles[key.renamed target]? = none :=
        Std.ExtTreeMap.getElem?_eq_none fun hmem => Resident.layer_ne_of_not_exists hfree hmem rfl
      have hafter : (front.withMoved layer target).tiles[key.renamed target]? = some payload :=
        (Resident.getElem?_withMoved hfree _ payload).mpr ⟨key, hkey, by rw [TileKey.moved, if_pos hlayer]⟩
      have hanswer := hsame (.get (requestOf (key.renamed target))) rfl
      rw [onState_get, onState_get] at hanswer
      change Except.ok ((front.withMoved layer target).tiles[key.renamed target]?.or backing.tiles[key.renamed target]?) =
        .ok (front.tiles[key.renamed target]?.or backing.tiles[key.renamed target]?) at hanswer
      rw [hbefore, hafter, Option.some_or, Option.none_or] at hanswer
      exact (Except.ok.inj hanswer).symm
    · have hafter : (front.withMoved layer target).metadataAt target key = some value := by
        rw [Resident.metadataAt_withMoved hfree, if_pos rfl, hvalue]
      have hanswer := hsame (.metadata target key) rfl
      rw [onState_metadata, onState_metadata, hafter, Resident.metadataAt_of_not_exists hfree, Option.some_or,
        Option.none_or] at hanswer
      exact (Except.ok.inj hanswer).symm
  · intro hheld call hcall
    rw [lookUp_of_within ((Resident.within_withMoved_left_iff h hfree).mpr hheld) hcall, lookUp_of_within h hcall]

/-- After a layer has been renamed, the front store is within the backing store exactly if the renaming does not tell them
apart. -/
theorem within_rename_iff (h : Within front backing) (layer target : String) :
    let renamed := ((residents (.rename layer target)).onState (front, backing)).2
    Within renamed.1 renamed.2 ↔ RenamesAlike front backing layer target := by
  intro renamed
  cases hfront : front.renameAnswer layer target with
  | error error =>
    rw [show renamed = (front, backing) from congrArg Prod.snd (onState_rename_of_error hfront)]
    exact iff_of_true h ⟨fun heq => (nomatch hfront.symm.trans heq), fun heq => (nomatch hfront.symm.trans heq)⟩
  | ok moved =>
    rw [show renamed = (_, _) from congrArg Prod.snd (onState_rename_of_ok hfront)]
    exact within_renamed_iff h hfront

/-- After a layer could not be renamed, look-ups answer as before exactly if the renaming does not tell the tiers apart. -/
theorem lookUps_of_failure_iff (h : Within front backing) {error : Error}
    (hfailed : ((residents (.rename layer target)).onState (front, backing)).1 = .error error) :
    (∀ call : StoreCall, call.isLookUp = true →
      ((residents call).onState ((residents (.rename layer target)).onState (front, backing)).2).1 =
        ((residents call).onState (front, backing)).1) ↔ RenamesAlike front backing layer target := by
  cases hfront : front.renameAnswer layer target with
  | error error =>
    rw [onState_rename_of_error hfront]
    exact iff_of_true (fun _ _ => rfl)
      ⟨fun heq => (nomatch hfront.symm.trans heq), fun heq => (nomatch hfront.symm.trans heq)⟩
  | ok moved =>
    rw [onState_rename_of_ok hfront] at hfailed ⊢
    cases hbacking : backing.renameAnswer layer target with
    | ok movedToo =>
      rw [hbacking] at hfailed
      cases hfailed
    | error error' =>
      have hstays : backing.renameAnswer layer target ≠ .ok true := fun heq => nomatch hbacking.symm.trans heq
      rw [Resident.onState_rename_of_not_moved hstays]
      cases moved with
      | false =>
        rw [(Resident.onState_rename_of_false hfront).2.2]
        exact iff_of_true (fun _ _ => rfl) ⟨fun heq => (nomatch hfront.symm.trans heq), fun _ heq => absurd heq hstays⟩
      | true =>
        obtain ⟨hfree, hrun⟩ := Resident.onState_rename_of_true hfront
        rw [hrun, lookUps_of_ahead_iff h hfree]
        exact ⟨fun hheld => ⟨fun _ _ => hheld, fun heq => (nomatch hfront.symm.trans heq)⟩,
          fun halike => halike.ahead hfront hstays⟩

end TwoTier

namespace Sample

/-- A store that some calls have made of an empty one. -/
def stored (calls : List StoreCall) : Resident := (Resident.alone.serve calls .empty).2

/-- A fast store before the store of all tiles. -/
def tiers : StoreTree := .twoTier "tiers" (.resident "fast") (.resident "tiles")

/-- A depot of two tiers. -/
def tiered (front backing : Resident) : Depot :=
  { DepotPlan.opened ⟨tiers, none, ⟨false, none, []⟩, .reliable⟩ (.atMinutes 5) table none with
    residents := .ofList [("fast", front), ("tiles", backing)] }

end Sample

namespace Depot

/-- After a layer has been renamed in two tiers, whether that failed or not, the front store holds nothing but what the backing
store holds exactly if (1) what it alone has moved is in the backing store under the new name, and (2) it has no notes on a
layer that the backing store alone has moved. Where the renaming failed, every look-up answers as before under the same
condition. -/
theorem tiers_coherent_after_rename_iff (name : String) {front backing : String} (hne : front ≠ backing) (depot : Depot)
    (hwithin : ((residentCell front).read depot).Within ((residentCell backing).read depot)) (layer target : String) :
    let tiers := (StoreTree.twoTier name (.resident front) (.resident backing)).tileStore .whole DepotPlan.unheld
    let renamed := (tiers (.rename layer target)).onState depot
    let alike := ((residentCell front).read depot).RenamesAlike ((residentCell backing).read depot) layer target
    (((residentCell front).read renamed.2).Within ((residentCell backing).read renamed.2) ↔ alike) ∧
      ∀ error : Error, renamed.1 = .error error →
        ((∀ call : StoreCall, call.isLookUp = true →
          ((tiers call).onState renamed.2).1 = ((tiers call).onState depot).1) ↔ alike) := by
  intro tiers renamed alike
  have hseen := twoTier_projects name hne
  have hrenamed : (TwoTier.residents (.rename layer target)).onState (tierView front backing depot) =
      (renamed.1, tierView front backing renamed.2) := hseen (.rename layer target) depot
  have hanswer : ∀ (call : StoreCall) (depot : Depot),
      ((tiers call).onState depot).1 = ((TwoTier.residents call).onState (tierView front backing depot)).1 :=
    fun call depot => (congrArg Prod.fst (hseen call depot)).symm
  constructor
  · have hiff := TwoTier.within_rename_iff hwithin layer target
    rw [show ((residentCell front).read depot, (residentCell backing).read depot) = tierView front backing depot from rfl,
      hrenamed] at hiff
    exact hiff
  · intro error herror
    have hfailed : ((TwoTier.residents (.rename layer target)).onState (tierView front backing depot)).1 = .error error :=
      (congrArg Prod.fst hrenamed).trans herror
    have hiff := TwoTier.lookUps_of_failure_iff hwithin hfailed
    rw [show ((residentCell front).read depot, (residentCell backing).read depot) = tierView front backing depot from rfl,
      hrenamed] at hiff
    simp only [hanswer]
    exact hiff

/-- A layer is to be renamed to one that exists in the backing store alone, where it holds the same tile. That fails, once the
front store has moved the tile; but what the front store holds now the backing store holds as well. -/
theorem tiers_coherent_after_refused_rename :
    let front := Sample.stored [.put (Sample.tile "roads" 1 2 5)]
    let backing := Sample.stored [.put (Sample.tile "streets" 1 2 5), .put (Sample.tile "roads" 1 2 5)]
    let depot := Sample.tiered front backing
    let tiers := Sample.tiers.tileStore .whole DepotPlan.unheld
    let renamed := (tiers (.rename "roads" "streets")).onState depot
    front.Within backing ∧ renamed.1 = .error (.storage "cannot rename roads to streets: target layer exists") ∧
      ((residentCell "fast").read renamed.2).Within ((residentCell "tiles").read renamed.2) ∧
      ((tiers (.get (Sample.request "streets" 1 2))).onState renamed.2).1 =
        ((tiers (.get (Sample.request "streets" 1 2))).onState depot).1 := by
  intro front backing depot tiers renamed
  have hfronts : Resident.Fronts front backing :=
    (Resident.fronts_empty (Sample.stored [.put (Sample.tile "streets" 1 2 5)])).put (Sample.tile "roads" 1 2 5)
  have halike : front.RenamesAlike backing "roads" "streets" := by
    have hnone : ∀ key : String, front.metadataAt "roads" key = none := fun _ => rfl
    refine ⟨fun _ _ => ⟨fun key payload hkey _ => ?_, fun key value hvalue => nomatch (hnone key).symm.trans hvalue⟩,
      fun _ _ => hnone⟩
    change ((∅ : Std.ExtTreeMap TileKey Payload).insert (Sample.tile "roads" 1 2 5).key _)[key]? = _ at hkey
    rw [Table.getElem?_insert] at hkey
    split at hkey
    · rename_i heq
      obtain rfl := heq
      change (((∅ : Std.ExtTreeMap TileKey Payload).insert (Sample.tile "streets" 1 2 5).key _).insert
        (Sample.tile "roads" 1 2 5).key _)[_]? = _
      rw [Table.getElem?_insert, if_neg (by decide), Table.getElem?_insert, if_pos (by decide)]
      exact hkey
    · simp at hkey
  have hfailed : renamed.1 = .error (.storage "cannot rename roads to streets: target layer exists") := by
    decide +kernel
  obtain ⟨hwithin, hlookUps⟩ := tiers_coherent_after_rename_iff "tiers" (by decide : "fast" ≠ "tiles") depot hfronts.toWithin
    "roads" "streets"
  exact ⟨hfronts.toWithin, hfailed, hwithin.mpr halike, (hlookUps _ hfailed).mpr halike _ rfl⟩

/-- A fast store that holds one tile of a layer moves it to a name that the store of all tiles refuses, since it holds another
tile under that name: the renaming fails, and the tile is found under the new name ever after. A fast store that has only a
note on a layer does not move it, and keeps it when the store of all tiles moves the layer. -/
theorem tiers_torn_by_rename :
    let tiers := Sample.tiers.tileStore .whole DepotPlan.unheld
    let ahead := Sample.tiered (Sample.stored [.put (Sample.tile "roads" 1 2 5)])
      (Sample.stored [.put (Sample.tile "streets" 3 4 7), .put (Sample.tile "roads" 1 2 5)])
    let aheadRenamed := (tiers (.rename "roads" "streets")).onState ahead
    let behind := Sample.tiered (Sample.stored [.putMetadata "roads" "style" "plain"])
      (Sample.stored [.put (Sample.tile "roads" 1 2 5), .putMetadata "roads" "style" "plain"])
    let behindRenamed := (tiers (.rename "roads" "streets")).onState behind
    let coherent (depot : Depot) := ((residentCell "fast").read depot).Within ((residentCell "tiles").read depot)
    let sizeFound (depot : Depot) :=
      ((tiers.serve [.get (Sample.request "streets" 1 2)] depot).1.filterMap Outcome.tile).map Tile.size
    (coherent ahead ∧ aheadRenamed.1 = .error (.storage "cannot rename roads to streets: target layer exists") ∧
      ¬ coherent aheadRenamed.2 ∧ sizeFound ahead = [0] ∧ sizeFound aheadRenamed.2 = [5]) ∧
    (coherent behind ∧ behindRenamed.1 = .ok true ∧ ¬ coherent behindRenamed.2) := by
  intro tiers ahead aheadRenamed behind behindRenamed coherent sizeFound
  have hahead : coherent ahead :=
    ((Resident.fronts_empty (Sample.stored [.put (Sample.tile "streets" 3 4 7)])).put (Sample.tile "roads" 1 2 5)).toWithin
  have hbehind : coherent behind :=
    ((Resident.fronts_empty (Sample.stored [.put (Sample.tile "roads" 1 2 5)])).putMetadata "roads" "style" "plain").toWithin
  have htorn : ¬ coherent aheadRenamed.2 := by
    intro h
    let key := (Sample.request "streets" 1 2).key
    have hfront : (((residentCell "fast").read aheadRenamed.2).tiles[key]?).isSome = true := by decide +kernel
    have hbacking : (((residentCell "tiles").read aheadRenamed.2).tiles[key]?).isSome = false := by decide +kernel
    obtain ⟨payload, hpayload⟩ := Option.isSome_iff_exists.mp hfront
    rw [h.tiles key payload hpayload] at hbacking
    cases hbacking
  have hleft : ¬ coherent behindRenamed.2 := by
    intro h
    have hfront : ((residentCell "fast").read behindRenamed.2).metadataAt "roads" "style" = some "plain" := by decide +kernel
    have hbacking : ((residentCell "tiles").read behindRenamed.2).metadataAt "roads" "style" = none := by decide +kernel
    exact nomatch (h.notes "roads" "style" "plain" hfront).symm.trans hbacking
  refine ⟨⟨hahead, ?_, htorn, ?_, ?_⟩, hbehind, ?_, hleft⟩ <;> decide +kernel

end Depot

end TileDepot
