import TileDepot.Proofs.Table
import TileDepot.Proofs.TileSet
import TileDepot.Store.Resident

/-!
# What events tell

The events of an operation of a resident store are its whole story: one after the other they lead from the sizes of the tiles
before the operation to those after it. Only `Resident.clear` says nothing of what it does.
-/

namespace TileDepot

/-- The sizes of the payloads of tiles. -/
abbrev Sizes := Std.ExtTreeMap TileKey Nat

namespace Resident

/-- The sizes of the tiles held. -/
def sizes (store : Resident) : Sizes := store.tiles.map fun _ payload => payload.size

end Resident

/-- Where a tile is when a layer has been moved to another. -/
def TileKey.moved (layer target : String) (key : TileKey) : TileKey := if key.layer = layer then key.renamed target else key

namespace Event

/-- The tile sets whose tiles go at once. -/
def dooms : Event → TileSet → Bool
  | layerDeleted layer, set => set.layer == layer
  | gridsetDeleted layer gridset, set => set.layer == layer && set.gridset == gridset
  | parametersDeleted layer parameters, set => set.layer == layer && set.parameters == some parameters
  | _, _ => false

/-- What an event says of the sizes before and after it. -/
def Tells (event : Event) (before after : Sizes) : Prop :=
  match event with
  | stored tile size => before[tile]? = none ∧ after = before.insert tile size
  | updated tile size oldSize => before[tile]? = some oldSize ∧ after = before.insert tile size
  | deleted tile size => before[tile]? = some size ∧ after = before.erase tile
  | layerRenamed layer target => (∀ key ∈ before, key.layer ≠ target) ∧
      ∀ (key : TileKey) (size : Nat), after[key]? = some size ↔
        ∃ origin : TileKey, before[origin]? = some size ∧ origin.moved layer target = key
  | event => after = before.filter fun key _ => !event.dooms key.tileSet

/-- The tile that an event is about, if it is about one tile. -/
def tile? : Event → Option TileKey
  | stored tile _ | updated tile _ _ | deleted tile _ => some tile
  | _ => none

/-- By how much an amount that depends on the size of a tile grows with an event. -/
def growth (amount : Nat → Int) : Event → Int
  | stored _ size => amount size
  | updated _ size oldSize => amount size - amount oldSize
  | deleted _ size => -amount size
  | _ => 0

/-- A sum over the tiles of a kind grows with the tile of an event, if that tile is of the kind. -/
theorem Tells.weigh_tile {event : Event} {before after : Sizes} {tile : TileKey} (h : event.Tells before after)
    (htile : event.tile? = some tile) (kind : TileKey → Prop) [DecidablePred kind] (amount : Nat → Int) :
    Table.weigh after (fun key size => if kind key then amount size else 0) =
      Table.weigh before (fun key size => if kind key then amount size else 0) +
        if kind tile then event.growth amount else 0 := by
  cases event with
  | stored tile' size =>
    obtain rfl : tile' = tile := Option.some.inj htile
    obtain ⟨hnew, rfl⟩ := h
    rw [Table.weigh_insert_of_none _ _ hnew]
    exact Int.add_comm _ _
  | updated tile' size oldSize =>
    obtain rfl : tile' = tile := Option.some.inj htile
    obtain ⟨hold, rfl⟩ := h
    rw [Table.weigh_insert_of_some _ _ hold]
    by_cases hkind : kind tile'
    · simp only [if_pos hkind, growth]
    · simp only [if_neg hkind, Int.sub_self]
  | deleted tile' size =>
    obtain rfl : tile' = tile := Option.some.inj htile
    obtain ⟨hold, rfl⟩ := h
    rw [Table.weigh_erase _ hold]
    by_cases hkind : kind tile'
    · simp only [if_pos hkind, growth]
      omega
    · simp only [if_neg hkind]
      omega
  | layerDeleted | layerRenamed | gridsetDeleted | parametersDeleted => cases htile

end Event

/-! ## Layers moved -/

/-- A tile that is moved to its own layer stays where it is. -/
theorem TileKey.moved_self (layer : String) (key : TileKey) : key.moved layer layer = key := by
  unfold TileKey.moved
  split
  · rename_i h
    rw [← h]
    rfl
  · rfl

/-- Where no tile is of the layer that a layer is moved to, no two tiles come to the same place. -/
theorem TileKey.moved_inj {layer target : String} {a b : TileKey} (ha : a.layer ≠ target) (hb : b.layer ≠ target)
    (h : a.moved layer target = b.moved layer target) : a = b := by
  unfold TileKey.moved at h
  split at h
  · rename_i hla
    split at h
    · rename_i hlb
      exact TileKey.eq_of_renamed_eq (hla.trans hlb.symm) h
    · exact absurd (congrArg TileKey.layer h).symm hb
  · split at h
    · exact absurd (congrArg TileKey.layer h) ha
    · exact h

/-- A sum after a layer has been moved is one over the places that the tiles have moved to. -/
theorem Event.Tells.weigh_moved {layer target : String} {before after : Sizes}
    (h : (Event.layerRenamed layer target).Tells before after) (measure : TileKey → Nat → Int) :
    Table.weigh after measure = Table.weigh before fun key size => measure (key.moved layer target) size := by
  obtain ⟨hfree, hafter⟩ := h
  exact Table.weigh_rekey (TileKey.moved layer target) measure
    (fun a ha b hb hab => TileKey.moved_inj (hfree a ha) (hfree b hb) hab) hafter

/-- A layer renamed to itself leaves the tiles where they are. -/
theorem Event.Tells.eq_of_self {layer : String} {before after : Sizes} (h : (Event.layerRenamed layer layer).Tells before after) :
    after = before := by
  refine Std.ExtTreeMap.ext_getElem? fun key => Option.ext fun size => ?_
  rw [h.2]
  simp only [TileKey.moved_self]
  exact ⟨fun ⟨origin, horigin, heq⟩ => heq ▸ horigin, fun hkey => ⟨key, hkey, rfl⟩⟩

/-- A list of events that lead, one after the other, from some sizes to others. -/
inductive Story : Sizes → List Event → Sizes → Prop where
  | nil (sizes : Sizes) : Story sizes [] sizes
  | cons {before between after : Sizes} {event : Event} {events : List Event} (first : event.Tells before between)
      (rest : Story between events after) : Story before (event :: events) after

/-- One event makes a story. -/
theorem Story.single {before after : Sizes} {event : Event} (h : event.Tells before after) : Story before [event] after :=
  .cons h (.nil after)

/-- A story of one event is what the event tells. -/
theorem Story.tells {before after : Sizes} {event : Event} (h : Story before [event] after) : event.Tells before after := by
  cases h with
  | cons first rest =>
    cases rest
    exact first

namespace Resident

variable {store store' : Resident} {key : TileKey} {payload : Payload}

/-- The size of a tile is that of its payload. -/
theorem getElem?_sizes (store : Resident) (key : TileKey) : store.sizes[key]? = store.tiles[key]?.map Payload.size :=
  Std.ExtTreeMap.getElem?_map

/-- A tile has a size if it is stored. -/
theorem mem_sizes {store : Resident} {key : TileKey} : key ∈ store.sizes ↔ key ∈ store.tiles := by
  rw [Std.ExtTreeMap.mem_iff_isSome_getElem?, Std.ExtTreeMap.mem_iff_isSome_getElem?, getElem?_sizes, Option.isSome_map]

/-! ## Tiles put in and taken out -/

/-- What a put that is not refused does. -/
theorem put_ok {tile : Tile} {event : Event} (h : store.put tile = .ok (event, store')) : ∃ payload : Payload,
    event = (match store.tiles[tile.key]? with
      | none => .stored tile.key payload.size
      | some old => .updated tile.key payload.size old.size) ∧
    store' = { store with
      tiles := store.tiles.insert tile.key payload
      parameters := withParameters store.parameters tile
      writes := store.writes + 1 } := by
  unfold put at h
  cases hpayload : tile.payload? with
  | none => rw [hpayload] at h; cases h
  | some payload =>
    rw [hpayload] at h
    obtain ⟨rfl, rfl⟩ := Prod.mk.inj (Except.ok.inj h)
    exact ⟨payload, rfl, rfl⟩

/-- The event of a tile that is put tells what was done. -/
theorem put_tells {tile : Tile} {event : Event} (h : store.put tile = .ok (event, store')) :
    event.Tells store.sizes store'.sizes := by
  obtain ⟨payload, rfl, rfl⟩ := put_ok h
  have hsizes : (store.tiles.insert tile.key payload).map (fun _ payload => payload.size) =
      store.sizes.insert tile.key payload.size := by
    refine Std.ExtTreeMap.ext_getElem? fun key => ?_
    rw [Std.ExtTreeMap.getElem?_map, Table.getElem?_insert, Table.getElem?_insert, getElem?_sizes]
    split <;> rfl
  cases hold : store.tiles[tile.key]? with
  | none => exact ⟨by rw [getElem?_sizes, hold]; rfl, hsizes⟩
  | some old => exact ⟨by rw [getElem?_sizes, hold]; rfl, hsizes⟩

/-- The sizes without a tile are those of the tiles without it. -/
theorem sizes_erase (tiles : Std.ExtTreeMap TileKey Payload) (key : TileKey) :
    (tiles.erase key).map (fun _ payload => payload.size) = (tiles.map fun _ payload => payload.size).erase key := by
  refine Std.ExtTreeMap.ext_getElem? fun key' => ?_
  rw [Std.ExtTreeMap.getElem?_map, Table.getElem?_erase, Table.getElem?_erase, Std.ExtTreeMap.getElem?_map]
  split <;> rfl

/-- The events of a deletion tell what was done. -/
theorem delete_story (store : Resident) (key : TileKey) :
    Story store.sizes (store.delete key).1.toList (store.delete key).2.sizes := by
  unfold delete
  cases hold : store.tiles[key]? with
  | none => exact .nil _
  | some payload => exact .single ⟨by rw [getElem?_sizes, hold]; rfl, sizes_erase store.tiles key⟩

/-- The sizes of the tiles of a kind are those of that kind. -/
theorem sizes_filter (tiles : Std.ExtTreeMap TileKey Payload) (keep : TileKey → Bool) :
    (tiles.filter fun key _ => keep key).map (fun _ payload => payload.size) =
      (tiles.map fun _ payload => payload.size).filter fun key _ => keep key := by
  refine Std.ExtTreeMap.ext_getElem? fun key => ?_
  rw [Std.ExtTreeMap.getElem?_map, Std.ExtTreeMap.getElem?_filter', Std.ExtTreeMap.getElem?_filter',
    Std.ExtTreeMap.getElem?_map]
  cases tiles[key]? <;> cases hkeep : keep key <;> simp [Option.filter]

/-- Tiles deleted one after the other. -/
theorem story_deleted : ∀ (doomed : List (TileKey × Nat)) (sizes : Sizes), (doomed.map Prod.fst).Nodup →
    (∀ entry ∈ doomed, sizes[entry.1]? = some entry.2) →
      Story sizes (doomed.map fun entry => .deleted entry.1 entry.2)
        (doomed.foldl (fun sizes entry => sizes.erase entry.1) sizes) := by
  intro doomed
  induction doomed with
  | nil => intro sizes _ _; exact .nil sizes
  | cons entry doomed ih =>
    intro sizes hnodup h
    rw [List.map_cons, List.nodup_cons] at hnodup
    refine .cons ⟨h entry List.mem_cons_self, rfl⟩ (ih _ hnodup.2 fun other hother => ?_)
    rw [Table.getElem?_erase, if_neg, h other (List.mem_cons_of_mem _ hother)]
    intro heq
    exact hnodup.1 (List.mem_map.mpr ⟨other, hother, heq.symm⟩)

/-- What is found after some tiles were erased one after the other. -/
theorem getElem?_foldl_erase : ∀ (doomed : List (TileKey × Nat)) (sizes : Sizes) (key : TileKey),
    (doomed.foldl (fun sizes entry => sizes.erase entry.1) sizes)[key]? =
      if key ∈ doomed.map Prod.fst then none else sizes[key]? := by
  intro doomed
  induction doomed with
  | nil => intro sizes key; simp
  | cons entry doomed ih =>
    intro sizes key
    rw [List.foldl_cons, ih, Table.getElem?_erase, List.map_cons]
    by_cases hkey : entry.1 = key
    · rw [if_pos hkey, if_pos (List.mem_cons.mpr (Or.inl hkey.symm)), ite_self]
    · have hiff : key ∈ entry.1 :: doomed.map Prod.fst ↔ key ∈ doomed.map Prod.fst := by
        simp [Ne.symm hkey]
      rw [if_neg hkey]
      by_cases hrest : key ∈ doomed.map Prod.fst
      · rw [if_pos hrest, if_pos (hiff.mpr hrest)]
      · rw [if_neg hrest, if_neg (mt hiff.mp hrest)]

/-- When the doomed tiles have been deleted one after the other, the others are left. -/
theorem foldl_erase_doomed (sizes : Sizes) (doomed : TileKey → Bool) :
    (sizes.filter fun key _ => doomed key).toList.foldl (fun sizes entry => sizes.erase entry.1) sizes =
      sizes.filter fun key _ => !doomed key := by
  refine Std.ExtTreeMap.ext_getElem? fun key => ?_
  rw [getElem?_foldl_erase, Std.ExtTreeMap.getElem?_filter']
  cases hkey : sizes[key]? with
  | none => exact ite_self none
  | some size =>
    have hiff : key ∈ (sizes.filter fun key _ => doomed key).toList.map Prod.fst ↔ doomed key = true := by
      rw [List.mem_map]
      constructor
      · rintro ⟨entry, hentry, rfl⟩
        have h := Table.mem_toList.mp hentry
        rw [Std.ExtTreeMap.getElem?_filter', Option.filter_eq_some_iff] at h
        exact h.2
      · intro hdoomed
        refine ⟨(key, size), Table.mem_toList.mpr ?_, rfl⟩
        rw [Std.ExtTreeMap.getElem?_filter', hkey, Option.filter_eq_some_iff]
        exact ⟨rfl, hdoomed⟩
    simp only [hiff, Option.filter]
    cases doomed key <;> rfl

/-- Tiles dropped at once. -/
theorem dropTiles_sizes (store : Resident) (doomed : TileKey → Bool) :
    (store.dropTiles doomed).2.sizes = store.sizes.filter fun key _ => !doomed key :=
  sizes_filter store.tiles fun key => !doomed key

/-- The events of tiles deleted one after the other, by the sizes of these tiles. -/
theorem deleteRange_events (store : Resident) (range : TileRange) : (store.deleteRange range).1 =
    (store.sizes.filter fun key _ => range.contains key).toList.map fun entry => .deleted entry.1 entry.2 := by
  have hlist : (store.sizes.filter fun key _ => range.contains key).toList =
      (store.tiles.filter fun key _ => range.contains key).toList.map fun entry => (entry.1, entry.2.size) := by
    change ((store.tiles.map _).filter _).toList = _
    rw [← sizes_filter, Std.ExtTreeMap.toList_map]
  rw [hlist, List.map_map]
  rfl

/-- The events of the deletion of a range tell what was done. -/
theorem deleteRange_story (store : Resident) (range : TileRange) :
    Story store.sizes (store.deleteRange range).1 (store.deleteRange range).2.sizes := by
  have hsizes : (store.deleteRange range).2.sizes = store.sizes.filter fun key _ => !range.contains key :=
    dropTiles_sizes store range.contains
  rw [deleteRange_events, hsizes, ← foldl_erase_doomed]
  refine story_deleted _ store.sizes (Table.nodup_toList_keys _) fun entry hentry => ?_
  have h := Table.mem_toList.mp hentry
  rw [Std.ExtTreeMap.getElem?_filter', Option.filter_eq_some_iff] at h
  exact h.1

/-! ## Tiles moved to another layer -/

/-- The tiles of a layer. -/
def tilesOfLayer (tiles : Std.ExtTreeMap TileKey Payload) (layer : String) : List (TileKey × Payload) :=
  (tiles.filter fun key _ => key.layer == layer).toList

/-- The tiles of a layer are those whose key is in it. -/
theorem mem_tilesOfLayer {tiles : Std.ExtTreeMap TileKey Payload} {layer : String} {entry : TileKey × Payload} :
    entry ∈ tilesOfLayer tiles layer ↔ tiles[entry.1]? = some entry.2 ∧ entry.1.layer = layer := by
  rw [tilesOfLayer, Table.mem_toList, Std.ExtTreeMap.getElem?_filter', Option.filter_eq_some_iff, beq_iff_eq]

/-- To move the tiles of a layer takes them out and inserts them under their keys in the other layer. -/
theorem moveTiles_eq (tiles : Std.ExtTreeMap TileKey Payload) (layer target : String) :
    moveTiles tiles layer target = (tilesOfLayer tiles layer).foldl
      (fun tiles entry => tiles.insert (entry.1.renamed target) entry.2) (tiles.filter fun key _ => key.layer != layer) := by
  unfold moveTiles
  rw [Std.ExtTreeMap.foldl_eq_foldl_toList]
  rfl

/-- The tiles of a layer go to different places in another one. -/
theorem nodup_renamed (tiles : Std.ExtTreeMap TileKey Payload) (layer target : String) :
    ((tilesOfLayer tiles layer).map fun entry => entry.1.renamed target).Nodup := by
  have hkeys : (((tilesOfLayer tiles layer).map Prod.fst).map fun key => key.renamed target).Nodup := by
    refine List.Nodup.map_on ?_ (Table.nodup_toList_keys _)
    intro a ha b hb hab
    obtain ⟨entry, hentry, rfl⟩ := List.mem_map.mp ha
    obtain ⟨entry', hentry', rfl⟩ := List.mem_map.mp hb
    exact TileKey.eq_of_renamed_eq ((mem_tilesOfLayer.mp hentry).2.trans (mem_tilesOfLayer.mp hentry').2.symm) hab
  rwa [List.map_map] at hkeys

/-- Where no tile is of the layer that a layer is moved to, every tile is found where it has been moved. -/
theorem getElem?_moveTiles {tiles : Std.ExtTreeMap TileKey Payload} {layer target : String}
    (hfree : ∀ key : TileKey, key ∈ tiles → key.layer ≠ target) (key : TileKey) (payload : Payload) :
    (moveTiles tiles layer target)[key]? = some payload ↔
      ∃ origin : TileKey, tiles[origin]? = some payload ∧ origin.moved layer target = key := by
  rw [moveTiles_eq]
  by_cases hplace : ∃ entry ∈ tilesOfLayer tiles layer, entry.1.renamed target = key
  · obtain ⟨entry, hentry, rfl⟩ := hplace
    have hfound := Table.getElem?_foldl_insert_of_mem (fun entry : TileKey × Payload => entry.1.renamed target) Prod.snd
      (tilesOfLayer tiles layer) (tiles.filter fun key _ => key.layer != layer) (nodup_renamed tiles layer target) entry hentry
    rw [hfound]
    obtain ⟨horigin, hlayer⟩ := mem_tilesOfLayer.mp hentry
    constructor
    · intro heq
      exact ⟨entry.1, horigin.trans heq, by rw [TileKey.moved, if_pos hlayer]⟩
    · rintro ⟨origin, hpayload, hmoved⟩
      unfold TileKey.moved at hmoved
      split at hmoved
      · rename_i horiginLayer
        obtain rfl := TileKey.eq_of_renamed_eq (horiginLayer.trans hlayer.symm) hmoved
        exact horigin.symm.trans hpayload
      · refine absurd ?_ (hfree origin (Table.mem_iff_exists.mpr ⟨payload, hpayload⟩))
        rw [hmoved]
        rfl
  · push Not at hplace
    have hkept := Table.getElem?_foldl_insert_of_ne (fun entry : TileKey × Payload => entry.1.renamed target) Prod.snd
      (tilesOfLayer tiles layer) (tiles.filter fun key _ => key.layer != layer) hplace
    rw [hkept, Std.ExtTreeMap.getElem?_filter', Option.filter_eq_some_iff, bne_iff_ne]
    constructor
    · rintro ⟨hkey, hlayer⟩
      exact ⟨key, hkey, by rw [TileKey.moved, if_neg hlayer]⟩
    · rintro ⟨origin, hpayload, hmoved⟩
      unfold TileKey.moved at hmoved
      split at hmoved
      · rename_i hlayer
        exact absurd hmoved (hplace (origin, payload) (mem_tilesOfLayer.mpr ⟨hpayload, hlayer⟩))
      · rename_i hlayer
        subst hmoved
        exact ⟨hpayload, hlayer⟩

/-- No stored tile is in a layer when no key is. -/
theorem no_tiles_iff {layer : String} :
    store.tiles.keys.any (·.layer == layer) = false ↔ ∀ key ∈ store.tiles, key.layer ≠ layer := by
  simp [List.any_eq_false, Std.ExtTreeMap.mem_keys]

/-- A layer does not exist when it has neither tiles nor metadata. -/
theorem layerExists_eq_false_iff {layer : String} :
    store.layerExists layer = false ↔ (∀ key ∈ store.tiles, key.layer ≠ layer) ∧ layer ∉ store.metadata := by
  rw [layerExists, Bool.or_eq_false_iff, no_tiles_iff, ← Bool.not_eq_true, Std.ExtTreeMap.contains_iff_mem]

/-- A layer that does not exist has no tiles. -/
theorem layer_ne_of_not_exists {layer : String} (h : store.layerExists layer = false) {key : TileKey} (hkey : key ∈ store.tiles) :
    key.layer ≠ layer :=
  (layerExists_eq_false_iff.mp h).1 key hkey

/-- The store with a layer moved to the name of another. -/
def withMoved (store : Resident) (layer target : String) : Resident :=
  { store with
    tiles := moveTiles store.tiles layer target
    metadata := moveEntry store.metadata layer target
    parameters := moveEntry store.parameters layer target }

/-- There are neither tiles of a layer nor parameters, not even an empty table of them. -/
def Bare (store : Resident) (layer : String) : Prop := (∀ key ∈ store.tiles, key.layer ≠ layer) ∧ layer ∉ store.parameters

/-- The three things that can come of a renaming, and when. -/
theorem rename_cases (store : Resident) (layer target : String) :
    (store.layerExists target = true ∧
      store.rename layer target = .error (.storage s!"cannot rename {layer} to {target}: target layer exists")) ∨
      (store.layerExists target = false ∧ store.Bare layer ∧ store.rename layer target = .ok (false, store)) ∨
      (store.layerExists target = false ∧ ¬store.Bare layer ∧
        store.rename layer target = .ok (true, store.withMoved layer target)) := by
  have hbare : (!(store.tiles.keys.any (·.layer == layer)) && !store.parameters.contains layer) = true ↔ store.Bare layer := by
    rw [Bool.and_eq_true, Bool.not_eq_true', Bool.not_eq_true', no_tiles_iff, ← Bool.not_eq_true (store.parameters.contains layer),
      Std.ExtTreeMap.contains_iff_mem]
    rfl
  rw [rename]
  cases htarget : store.layerExists target with
  | true => exact Or.inl ⟨rfl, rfl⟩
  | false =>
    rw [if_neg Bool.false_ne_true]
    by_cases hnothing : store.Bare layer
    · rw [if_pos (hbare.mpr hnothing)]
      exact Or.inr (Or.inl ⟨rfl, hnothing, rfl⟩)
    · rw [if_neg (mt hbare.mp hnothing)]
      exact Or.inr (Or.inr ⟨rfl, hnothing, rfl⟩)

/-- A rename that is not refused moves the layer, or nothing. -/
theorem rename_ok {layer target : String} {moved : Bool} (h : store.rename layer target = .ok (moved, store')) :
    store.layerExists target = false ∧
      (moved = false ∧ store' = store ∨ moved = true ∧ store' = store.withMoved layer target) := by
  rcases store.rename_cases layer target with ⟨-, hrun⟩ | ⟨hfree, -, hrun⟩ | ⟨hfree, -, hrun⟩
  all_goals rw [hrun] at h; cases h
  · exact ⟨hfree, .inl ⟨rfl, rfl⟩⟩
  · exact ⟨hfree, .inr ⟨rfl, rfl⟩⟩

/-- The event of a renaming tells what was done. -/
theorem rename_story {layer target : String} {moved : Bool} (h : store.rename layer target = .ok (moved, store')) :
    Story store.sizes (if moved then [.layerRenamed layer target] else []) store'.sizes := by
  obtain ⟨hexists, ⟨rfl, rfl⟩ | ⟨rfl, rfl⟩⟩ := rename_ok h
  · exact .nil _
  · have hfree : ∀ key : TileKey, key ∈ store.tiles → key.layer ≠ target := fun key hkey =>
      layer_ne_of_not_exists hexists hkey
    refine .single ⟨fun key hkey => hfree key (mem_sizes.mp hkey), fun key size => ?_⟩
    change ((moveTiles store.tiles layer target).map fun _ payload => payload.size)[key]? = some size ↔ _
    rw [Std.ExtTreeMap.getElem?_map, Option.map_eq_some_iff]
    constructor
    · rintro ⟨payload, hpayload, rfl⟩
      obtain ⟨origin, horigin, hmoved⟩ := (getElem?_moveTiles hfree key payload).mp hpayload
      exact ⟨origin, by rw [getElem?_sizes, horigin]; rfl, hmoved⟩
    · rintro ⟨origin, horigin, hmoved⟩
      rw [getElem?_sizes, Option.map_eq_some_iff] at horigin
      obtain ⟨payload, hpayload, rfl⟩ := horigin
      exact ⟨payload, (getElem?_moveTiles hfree key payload).mpr ⟨origin, hpayload, hmoved⟩, rfl⟩

/-! ## Every operation -/

/-- A put that is answered has one event. -/
theorem answer_put {tile : Tile} {events : List Event} (h : store.answer (.put tile) = .ok ((), events, store')) :
    ∃ event : Event, store.put tile = .ok (event, store') ∧ events = [event] := by
  simp only [answer] at h
  cases hput : store.put tile with
  | error error => rw [hput] at h; cases h
  | ok outcome =>
    rw [hput] at h
    cases h
    exact ⟨_, rfl, rfl⟩

/-- A rename that is answered has an event if anything was moved. -/
theorem answer_rename {layer target : String} {moved : Bool} {events : List Event}
    (h : store.answer (.rename layer target) = .ok (moved, events, store')) :
    store.rename layer target = .ok (moved, store') ∧ events = if moved then [.layerRenamed layer target] else [] := by
  simp only [answer] at h
  cases hrename : store.rename layer target with
  | error error => rw [hrename] at h; cases h
  | ok outcome =>
    rw [hrename] at h
    cases h
    exact ⟨rfl, rfl⟩

/-- The events of an operation tell all that it does to the tiles. -/
theorem answer_story {call : StoreCall} {value : call.Answer} {events : List Event}
    (h : store.answer call = .ok (value, events, store')) (hclear : call ≠ .clear) :
    Story store.sizes events store'.sizes := by
  cases call with
  | put tile =>
    obtain ⟨event, hput, rfl⟩ := answer_put h
    exact .single (put_tells hput)
  | rename layer target =>
    obtain ⟨hrename, rfl⟩ := answer_rename h
    exact rename_story hrename
  | clear => exact absurd rfl hclear
  | delete key =>
    cases h
    exact delete_story store key
  | deleteRange range =>
    cases h
    exact deleteRange_story store range
  | deleteLayer | deleteGridset | deleteParameters =>
    cases h
    exact .single (dropTiles_sizes store _)
  | get | layerExists | parametersOf | metadata | putMetadata | addListener | removeListener =>
    cases h
    exact .nil _

/-- Renaming a layer leaves the listeners alone. -/
theorem listeners_rename {layer target : String} {moved : Bool} (h : store.rename layer target = .ok (moved, store')) :
    store'.listeners = store.listeners := by
  obtain ⟨-, ⟨-, rfl⟩ | ⟨-, rfl⟩⟩ := rename_ok h
  · rfl
  · rfl

/-- Who listens changes only with a call that is about listeners. -/
theorem listeners_answer {call : StoreCall} {value : call.Answer} {events : List Event}
    (h : store.answer call = .ok (value, events, store')) (hcall : call.isAboutListeners = false) :
    store'.listeners = store.listeners := by
  cases call with
  | put tile =>
    obtain ⟨event, hput, -⟩ := answer_put h
    obtain ⟨payload, -, rfl⟩ := put_ok hput
    rfl
  | rename layer target => exact listeners_rename (answer_rename h).1
  | delete key =>
    cases h
    split <;> rfl
  | addListener | removeListener => cases hcall
  | get | deleteRange | deleteLayer | deleteGridset | deleteParameters | layerExists | parametersOf | metadata | putMetadata
    | clear =>
    cases h
    rfl

end Resident

end TileDepot
