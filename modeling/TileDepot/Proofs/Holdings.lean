import TileDepot.Page.Ledger
import TileDepot.Proofs.Table
import TileDepot.Proofs.TileSet

/-!
# What a ledger holds of a tile set

A ledger has three tables, and all that it has of a tile set stands in them under the identifier of the tile set. A keyed
ledger has nothing of a tile set that is not registered, and has every tile set and every page under its own key; in a sound
one all names are plain, too. In a sound ledger a layer is renamed tile set by tile set: what was held of the old one is held
of the new one.
-/

namespace TileDepot

/-- What a ledger has under an identifier: a tile set, its usage, and its pages by zoom, row and column. -/
structure Holding where
  set : Option TileSet
  usage : Option Usage
  page : Nat → Nat → Nat → Option PageEntry

namespace Holding

/-- Nothing is held. -/
def nothing : Holding := ⟨none, none, fun _ _ _ => none⟩

/-- What is held of a tile set once everything held of another has been moved to it; what it moves onto is replaced. -/
def onto (moved : Holding) (set : TileSet) (old : Holding) : Holding where
  set := some set
  usage := moved.usage.or old.usage
  page zoom row column := ((moved.page zoom row column).map (Ledger.reassign · set.id)).or (old.page zoom row column)

/-- What is held under an identifier is nothing of an unregistered tile set, and every page is held in its own place. -/
structure KeyedAt (id : String) (holding : Holding) : Prop where
  set_of : ∀ {set}, holding.set = some set → set.id = id
  usage_of : ∀ {usage}, holding.usage = some usage → ∃ set, holding.set = some set
  page_of : ∀ {zoom row column entry}, holding.page zoom row column = some entry →
    entry.page.key = ⟨id, zoom, row, column⟩ ∧ ∃ set, holding.set = some set

/-- Nothing is held in its own place. -/
theorem keyedAt_nothing (id : String) : nothing.KeyedAt id where
  set_of h := by cases h
  usage_of h := by cases h
  page_of h := by cases h

/-- What is moved onto another tile set is held in the place of that one. -/
theorem KeyedAt.onto {id : String} {moved old : Holding} {set : TileSet} (h : moved.KeyedAt id) (hold : old.KeyedAt set.id) :
    (moved.onto set old).KeyedAt set.id where
  set_of heq := by
    obtain rfl := Option.some.inj heq
    rfl
  usage_of _ := ⟨set, rfl⟩
  page_of {zoom row column entry} heq := by
    refine ⟨?_, set, rfl⟩
    rcases Option.or_eq_some_iff.mp heq with hnew | ⟨-, hkept⟩
    · obtain ⟨origin, horigin, rfl⟩ := Option.map_eq_some_iff.mp hnew
      have hkey := (h.page_of horigin).1
      simp only [Page.key, PageKey.mk.injEq] at hkey
      simp only [Ledger.reassign, Page.key, hkey]
    · exact (hold.page_of hkept).1

end Holding

namespace Ledger

/-- A ledger in which every tile set is registered under its own identifier. -/
def Registered (ledger : Ledger) : Prop :=
  ∀ (id : String) (set : TileSet), ledger.tileSets[id]? = some set → set.id = id

/-- A ledger that has nothing of an unregistered tile set, and everything under its own key. -/
structure Keyed (ledger : Ledger) : Prop where
  set_of : ∀ {id : String} {set : TileSet}, ledger.tileSets[id]? = some set → set.id = id
  usage_of : ∀ {id : String} {usage : Usage}, ledger.usage[id]? = some usage → ∃ set, ledger.tileSets[id]? = some set
  page_of : ∀ {key : PageKey} {entry : PageEntry}, ledger.pages[key]? = some entry →
    entry.page.key = key ∧ ∃ set, ledger.tileSets[key.tileSet]? = some set

/-- So it is, and all tile sets have plain names. -/
structure Sound (ledger : Ledger) : Prop where
  set_of : ∀ {id : String} {set : TileSet}, ledger.tileSets[id]? = some set → set.id = id ∧ set.Plain
  usage_of : ∀ {id : String} {usage : Usage}, ledger.usage[id]? = some usage → ∃ set, ledger.tileSets[id]? = some set
  page_of : ∀ {key : PageKey} {entry : PageEntry}, ledger.pages[key]? = some entry →
    entry.page.key = key ∧ ∃ set, ledger.tileSets[key.tileSet]? = some set

/-- What a ledger has under an identifier. -/
def holding (ledger : Ledger) (id : String) : Holding :=
  ⟨ledger.tileSets[id]?, ledger.usage[id]?, fun zoom row column => ledger.pages[(⟨id, zoom, row, column⟩ : PageKey)]?⟩

variable {ledger : Ledger}

/-- The pages found are those held. -/
theorem pages_of_holding (key : PageKey) {holding : Holding} (h : ledger.holding key.tileSet = holding) :
    ledger.pages[key]? = holding.page key.zoom key.row key.column := by
  rw [← h]
  rfl

/-- A sound ledger has everything under its own key. -/
theorem Sound.keyed (h : ledger.Sound) : ledger.Keyed := ⟨fun hset => (h.set_of hset).1, h.usage_of, h.page_of⟩

/-- A ledger with everything under its own key is sound if its names are plain. -/
theorem Keyed.sound (h : ledger.Keyed) (hplain : ∀ {id : String} {set : TileSet}, ledger.tileSets[id]? = some set → set.Plain) :
    ledger.Sound :=
  ⟨fun hset => ⟨h.set_of hset, hplain hset⟩, h.usage_of, h.page_of⟩

/-- An empty ledger is sound. -/
theorem sound_empty : empty.Sound where
  set_of h := by simp [empty] at h
  usage_of h := by simp [empty] at h
  page_of h := by simp [empty] at h

/-- A registered plain tile set is the one under its identifier. -/
theorem Sound.eq_of_id {set set' : TileSet} (h : ledger.Sound) (hset : ledger.tileSets[set.id]? = some set')
    (hplain : set.Plain) : set' = set := by
  obtain ⟨hid, hplain'⟩ := h.set_of hset
  exact hplain'.eq_of_id hplain hid

/-- The tile sets of a layer are those of its registered tile sets that name it. -/
theorem Registered.mem_tileSetsOf {layer : String} {set : TileSet} (h : ledger.Registered) :
    set ∈ ledger.tileSetsOf layer ↔ ledger.tileSets[set.id]? = some set ∧ set.layer = layer := by
  rw [tileSetsOf, List.mem_filter, allTileSets, Table.mem_values, beq_iff_eq]
  constructor
  · rintro ⟨⟨id, hset⟩, hlayer⟩
    obtain rfl := h id set hset
    exact ⟨hset, hlayer⟩
  · rintro ⟨hset, hlayer⟩
    exact ⟨⟨set.id, hset⟩, hlayer⟩

/-- The same of a ledger that has everything under its own key. -/
theorem Keyed.mem_tileSetsOf {layer : String} {set : TileSet} (h : ledger.Keyed) :
    set ∈ ledger.tileSetsOf layer ↔ ledger.tileSets[set.id]? = some set ∧ set.layer = layer :=
  Registered.mem_tileSetsOf fun _ _ => h.set_of

/-- The same of a sound ledger. -/
theorem mem_tileSetsOf {layer : String} {set : TileSet} (h : ledger.Sound) :
    set ∈ ledger.tileSetsOf layer ↔ ledger.tileSets[set.id]? = some set ∧ set.layer = layer := h.keyed.mem_tileSetsOf

/-- No two tile sets go by the same identifier. -/
theorem Keyed.nodup_ids (h : ledger.Keyed) : (ledger.allTileSets.map TileSet.id).Nodup := by
  have hkeys := Table.nodup_toList_keys ledger.tileSets
  rw [allTileSets, Table.values_eq, List.map_map]
  rwa [List.map_congr_left (g := TileSet.id ∘ Prod.snd) fun entry hentry =>
    (h.set_of (Table.mem_toList.mp hentry)).symm] at hkeys

/-- No identifier is listed twice for a layer. -/
theorem Keyed.nodup_idsOf (h : ledger.Keyed) (layer : String) : ((ledger.tileSetsOf layer).map TileSet.id).Nodup :=
  h.nodup_ids.sublist (List.filter_sublist.map _)

/-- No tile set is listed twice for a layer. -/
theorem nodup_tileSetsOf (h : ledger.Sound) (layer : String) : (ledger.tileSetsOf layer).Nodup :=
  List.Nodup.of_map _ (h.keyed.nodup_idsOf layer)

/-! ## One tile set moved -/

/-- The pages listed under an identifier. -/
def listed (pages : Std.ExtTreeMap PageKey PageEntry) (id : String) : List (PageKey × PageEntry) :=
  (pages.filter fun key _ => key.tileSet == id).toList

/-- The pages listed for a tile set are those under its identifier. -/
theorem mem_listed {pages : Std.ExtTreeMap PageKey PageEntry} {id : String} {item : PageKey × PageEntry} :
    item ∈ listed pages id ↔ pages[item.1]? = some item.2 ∧ item.1.tileSet = id := by
  rw [listed, Table.mem_toList, Std.ExtTreeMap.getElem?_filter', Option.filter_eq_some_iff, beq_iff_eq]

/-- To move the pages of a tile set relocates each of them to its key in the other tile set. -/
theorem movePages_eq (pages : Std.ExtTreeMap PageKey PageEntry) (id target : String) :
    movePages pages id target =
      Table.relocate (fun item => (reassign item.2 target).page.key) (reassign · target) pages (listed pages id) := by
  unfold movePages
  rw [Std.ExtTreeMap.foldl_eq_foldl_toList]
  rfl

/-- A page of a keyed ledger moves to the same place in the other tile set. -/
theorem Keyed.key_reassign (h : ledger.Keyed) {id target : String} {item : PageKey × PageEntry}
    (hitem : item ∈ listed ledger.pages id) : (reassign item.2 target).page.key = { item.1 with tileSet := target } := by
  obtain ⟨hkey, -⟩ := h.page_of (mem_listed.mp hitem).1
  rw [← hkey]
  rfl

/-- The pages of other tile sets stay where they are. -/
theorem movePages_other (h : ledger.Keyed) {id target : String} {key : PageKey} (hid : key.tileSet ≠ id)
    (htarget : key.tileSet ≠ target) : (movePages ledger.pages id target)[key]? = ledger.pages[key]? := by
  rw [movePages_eq]
  refine Table.getElem?_relocate_of_ne _ _ _ _ fun item hitem => ⟨fun heq => hid ?_, fun heq => htarget ?_⟩
  · rw [← heq]
    exact (mem_listed.mp hitem).2
  · rw [h.key_reassign hitem] at heq
    rw [← heq]

/-- The pages of a tile set move to different places. -/
theorem Keyed.nodup_reassign (h : ledger.Keyed) (id target : String) :
    ((listed ledger.pages id).map fun item => (reassign item.2 target).page.key).Nodup := by
  refine List.Nodup.map_on (fun a ha b hb hab => ?_) (Table.nodup_toList _)
  rw [h.key_reassign ha, h.key_reassign hb, PageKey.mk.injEq] at hab
  obtain ⟨hpage, hid⟩ := mem_listed.mp ha
  obtain ⟨hpage', hid'⟩ := mem_listed.mp hb
  have hkey : a.1 = b.1 := by
    obtain ⟨⟨tileSet, zoom, row, column⟩, entry⟩ := a
    obtain ⟨⟨tileSet', zoom', row', column'⟩, entry'⟩ := b
    simp_all
  rw [hkey] at hpage
  exact Prod.ext hkey (Option.some.inj (hpage.symm.trans hpage'))

/-- No page is left of the tile set that was moved. -/
theorem movePages_source (h : ledger.Keyed) {id target : String} {key : PageKey} (hid : key.tileSet = id)
    (hne : id ≠ target) : (movePages ledger.pages id target)[key]? = none := by
  rw [movePages_eq]
  refine Table.getElem?_relocate_of_origin _ _ _ _ (fun item hitem heq => ?_) ?_
  · rw [h.key_reassign hitem] at heq
    rw [← hid, ← heq] at hne
    exact hne rfl
  · cases hpage : ledger.pages[key]? with
    | none => exact Or.inr rfl
    | some entry => exact Or.inl (List.mem_map.mpr ⟨(key, entry), mem_listed.mpr ⟨hpage, hid⟩, rfl⟩)

/-- A page of the target is the one that was moved there, or else the one that was there before. -/
theorem movePages_target (h : ledger.Keyed) {id target : String} {key : PageKey} (htarget : key.tileSet = target)
    (hne : id ≠ target) :
    (movePages ledger.pages id target)[key]? =
      (ledger.pages[{ key with tileSet := id }]?.map (reassign · target)).or ledger.pages[key]? := by
  rw [movePages_eq]
  cases horigin : ledger.pages[{ key with tileSet := id }]? with
  | none =>
    rw [Option.map_none, Option.none_or]
    refine Table.getElem?_relocate_of_ne _ _ _ _ fun item hitem => ⟨fun heq => hne ?_, fun heq => ?_⟩
    · rw [← (mem_listed.mp hitem).2, heq, htarget]
    · obtain ⟨hpage, hid⟩ := mem_listed.mp hitem
      rw [h.key_reassign hitem] at heq
      have hkey : { key with tileSet := id } = item.1 := by
        rw [← heq, ← hid]
      rw [hkey, hpage] at horigin
      cases horigin
  | some entry =>
    rw [Option.map_some, Option.some_or]
    have hitem : ({ key with tileSet := id }, entry) ∈ listed ledger.pages id :=
      mem_listed.mpr ⟨horigin, rfl⟩
    have hplace : (reassign entry target).page.key = key := by
      rw [h.key_reassign hitem, ← htarget]
    have hfound := Table.getElem?_relocate_of_place (fun item : PageKey × PageEntry => (reassign item.2 target).page.key)
      (reassign · target) _ ledger.pages (h.nodup_reassign id target) ?_ _ hitem
    · rwa [hplace] at hfound
    · intro item hitem' other hother heq
      rw [h.key_reassign hitem'] at heq
      obtain ⟨-, hid⟩ := mem_listed.mp hother
      rw [← hid, ← heq] at hne
      exact hne rfl

/-- The usage that is moved replaces that of the target and leaves nothing behind. -/
theorem getElem?_moveUsage (usage : Std.ExtTreeMap String Usage) {source target : String} (hne : source ≠ target)
    (id : String) :
    (moveUsage usage source target)[id]? =
      if id = target then usage[source]?.or usage[id]? else if id = source then none else usage[id]? := by
  unfold moveUsage
  cases hmoved : usage[source]? with
  | none =>
    rw [Option.none_or]
    by_cases hid : id = source
    · subst hid
      rw [hmoved, ite_self, ite_self]
    · rw [if_neg hid, ite_self]
  | some moved =>
    change ((usage.erase source).insert target moved)[id]? = _
    rw [Table.getElem?_insert, Table.getElem?_erase, Option.some_or]
    simp only [eq_comm (a := target), eq_comm (a := source)]

/-- Pages moved to the tile set they are in. -/
theorem movePages_self (h : ledger.Keyed) (id : String) : movePages ledger.pages id id = ledger.pages := by
  rw [movePages_eq]
  refine Table.relocate_self _ _ _ fun item hitem => ?_
  obtain ⟨hpage, hid⟩ := mem_listed.mp hitem
  obtain ⟨hkey, -⟩ := h.page_of hpage
  have hsame : reassign item.2 id = item.2 := by
    rw [reassign, ← hid, ← hkey]
    rfl
  exact ⟨by rw [hsame, hkey], hsame, hpage⟩

/-- Usage moved to the tile set it is of. -/
theorem moveUsage_self (usage : Std.ExtTreeMap String Usage) (id : String) : moveUsage usage id id = usage := by
  unfold moveUsage
  cases hmoved : usage[id]? with
  | none => rfl
  | some moved => exact Table.insert_erase_self hmoved

/-- A tile set of one layer has another identifier in another layer. -/
theorem id_ne_renamed {set set' : TileSet} {target : String} (h : set.Plain) (h' : set'.Plain) (ht : PlainName target)
    (hne : set'.layer ≠ target) : set'.id ≠ (set.renamed target).id := fun heq =>
  hne (congrArg TileSet.layer (h'.eq_of_id (h.renamed ht) heq))

section Move

variable {set : TileSet} {target : String}

/-- What was held of the tile set is held of the one it was moved to. -/
theorem holding_moveTileSet_target (h : ledger.Keyed) (hne : set.id ≠ (set.renamed target).id) :
    (ledger.moveTileSet set target).holding (set.renamed target).id =
      (ledger.holding set.id).onto (set.renamed target) (ledger.holding (set.renamed target).id) := by
  simp only [holding, moveTileSet, Holding.onto, Holding.mk.injEq]
  refine ⟨?_, ?_, ?_⟩
  · rw [Table.getElem?_insert, if_pos rfl]
  · rw [getElem?_moveUsage _ hne, if_pos rfl]
  · funext zoom row column
    exact movePages_target h rfl hne

/-- Nothing is held any more of a tile set that was moved. -/
theorem holding_moveTileSet_source (h : ledger.Keyed) (hne : set.id ≠ (set.renamed target).id) :
    (ledger.moveTileSet set target).holding set.id = .nothing := by
  simp only [holding, moveTileSet, Holding.nothing, Holding.mk.injEq]
  refine ⟨?_, ?_, ?_⟩
  · rw [Table.getElem?_insert, if_neg hne.symm, Table.getElem?_erase, if_pos rfl]
  · rw [getElem?_moveUsage _ hne, if_neg hne, if_pos rfl]
  · funext zoom row column
    exact movePages_source h rfl hne

/-- Of the other tile sets the same is held as before. -/
theorem holding_moveTileSet_other (h : ledger.Keyed) (hne : set.id ≠ (set.renamed target).id) {id : String}
    (hid : id ≠ set.id) (htarget : id ≠ (set.renamed target).id) :
    (ledger.moveTileSet set target).holding id = ledger.holding id := by
  simp only [holding, moveTileSet, Holding.mk.injEq]
  refine ⟨?_, ?_, ?_⟩
  · rw [Table.getElem?_insert, if_neg htarget.symm, Table.getElem?_erase, if_neg hid.symm]
  · rw [getElem?_moveUsage _ hne, if_neg htarget, if_neg hid]
  · funext zoom row column
    exact movePages_other h hid htarget

end Move

/-! ## Keys by holdings -/

/-- A ledger has everything under its own key when each of its holdings has. -/
theorem keyed_iff : ledger.Keyed ↔ ∀ id, (ledger.holding id).KeyedAt id := by
  constructor
  · intro h id
    exact ⟨h.set_of, h.usage_of, h.page_of⟩
  · intro h
    exact ⟨fun {id _} hset => (h id).set_of hset, fun {id _} husage => (h id).usage_of husage,
      fun {key _} hpage => (h key.tileSet).page_of hpage⟩

/-- The tile sets after a move are the one that was moved, in its new layer, and old ones. -/
theorem tileSets_moveTileSet {set found : TileSet} {target id : String}
    (h : (ledger.moveTileSet set target).tileSets[id]? = some found) :
    (set.renamed target).id = id ∧ found = set.renamed target ∨ ledger.tileSets[id]? = some found := by
  simp only [moveTileSet, Table.getElem?_insert, Table.getElem?_erase] at h
  split at h
  · rename_i htarget
    exact Or.inl ⟨htarget, (Option.some.inj h).symm⟩
  · split at h
    · cases h
    · exact Or.inr h

/-- A ledger stays keyed when a tile set is moved, wherever it goes. -/
theorem Keyed.moveTileSet (h : ledger.Keyed) (set : TileSet) (target : String) : (ledger.moveTileSet set target).Keyed := by
  by_cases hne : set.id = (set.renamed target).id
  · -- the tile set goes by its old identifier in the new layer: pages and usage stay where they are
    have hfound : ∀ {id : String}, (∃ set', ledger.tileSets[id]? = some set') →
        ∃ set', (ledger.moveTileSet set target).tileSets[id]? = some set' := by
      intro id hold
      simp only [Ledger.moveTileSet, Table.getElem?_insert, Table.getElem?_erase, ← hne]
      by_cases hid : set.id = id
      · exact ⟨set.renamed target, if_pos hid⟩
      · simpa only [if_neg hid] using hold
    refine ⟨fun hset => ?_, fun {id usage} husage => ?_, fun {key entry} hentry => ?_⟩
    · rcases tileSets_moveTileSet hset with ⟨hid, rfl⟩ | hold
      · exact hid
      · exact h.set_of hold
    · simp only [Ledger.moveTileSet, ← hne, moveUsage_self] at husage
      exact hfound (h.usage_of husage)
    · simp only [Ledger.moveTileSet, ← hne, movePages_self h] at hentry
      exact ⟨(h.page_of hentry).1, hfound (h.page_of hentry).2⟩
  · rw [keyed_iff]
    intro id
    by_cases htarget : id = (set.renamed target).id
    · rw [htarget, holding_moveTileSet_target h hne]
      exact (keyed_iff.mp h set.id).onto (keyed_iff.mp h _)
    · by_cases hid : id = set.id
      · rw [hid, holding_moveTileSet_source h hne]
        exact Holding.keyedAt_nothing _
      · rw [holding_moveTileSet_other h hne hid htarget]
        exact keyed_iff.mp h id

/-- A ledger stays sound when a tile set is moved. -/
theorem sound_moveTileSet {set : TileSet} {target : String} (h : ledger.Sound) (hplain : (set.renamed target).Plain) :
    (ledger.moveTileSet set target).Sound := by
  refine (h.keyed.moveTileSet set target).sound fun {id found} hfound => ?_
  rcases tileSets_moveTileSet hfound with ⟨-, rfl⟩ | hold
  · exact hplain
  · exact (h.set_of hold).2

/-! ## A layer renamed -/

/-- Two tile sets of a layer and their counterparts in another layer have different identifiers. -/
theorem ids_apart {set other : TileSet} {target : String} (h : set.Plain) (h' : other.Plain) (ht : PlainName target)
    (hlayer : set.layer = other.layer) (hne : other.layer ≠ target) (hdiff : set ≠ other) :
    (set.id ≠ other.id ∧ set.id ≠ (other.renamed target).id) ∧
      (set.renamed target).id ≠ other.id ∧ (set.renamed target).id ≠ (other.renamed target).id where
  left := ⟨fun heq => hdiff (h.eq_of_id h' heq), id_ne_renamed h' h ht (hlayer.trans_ne hne)⟩
  right := ⟨(id_ne_renamed h h' ht hne).symm, fun heq => hdiff (h.eq_of_renamed_id h' ht hlayer heq)⟩

/-- Some tile sets have been moved to another layer: what was held of each is held of its counterpart, nothing is held of it any
more, and of all other identifiers the same is held as before. -/
structure Moves (target : String) (sets : List TileSet) (ledger after : Ledger) : Prop where
  moved : ∀ set ∈ sets, after.holding (set.renamed target).id =
    (ledger.holding set.id).onto (set.renamed target) (ledger.holding (set.renamed target).id)
  gone : ∀ set ∈ sets, after.holding set.id = .nothing
  kept : ∀ id, (∀ set ∈ sets, id ≠ set.id ∧ id ≠ (set.renamed target).id) → after.holding id = ledger.holding id

namespace Moves

variable {set : TileSet} {sets : List TileSet} {target : String} {between after : Ledger}

/-- A ledger from which nothing is moved stays what it is. -/
theorem nil (target : String) (ledger : Ledger) : Moves target [] ledger ledger :=
  ⟨List.forall_mem_nil _, List.forall_mem_nil _, fun _ _ => rfl⟩

/-- To move one tile set is a move. -/
theorem single (h : ledger.Keyed) (hne : set.id ≠ (set.renamed target).id) :
    Moves target [set] ledger (ledger.moveTileSet set target) where
  moved := List.forall_mem_singleton.mpr (holding_moveTileSet_target h hne)
  gone := List.forall_mem_singleton.mpr (holding_moveTileSet_source h hne)
  kept _ hid := holding_moveTileSet_other h hne (hid set List.mem_cons_self).1 (hid set List.mem_cons_self).2

/-- One tile set moved after the other, where the others are neither the first one nor its counterpart. -/
theorem cons (first : Moves target [set] ledger between) (rest : Moves target sets between after)
    (hapart : ∀ other ∈ sets, (other.id ≠ set.id ∧ other.id ≠ (set.renamed target).id) ∧
      (other.renamed target).id ≠ set.id ∧ (other.renamed target).id ≠ (set.renamed target).id) :
    Moves target (set :: sets) ledger after := by
  have hkept : ∀ id, id ≠ set.id ∧ id ≠ (set.renamed target).id → between.holding id = ledger.holding id := fun id hid =>
    first.kept id (List.forall_mem_singleton.mpr hid)
  refine ⟨List.forall_mem_cons.mpr ⟨?_, fun other hother => ?_⟩, List.forall_mem_cons.mpr ⟨?_, rest.gone⟩, fun id hid => ?_⟩
  · rw [rest.kept _ fun other hother => ⟨(hapart other hother).1.2.symm, (hapart other hother).2.2.symm⟩]
    exact first.moved set List.mem_cons_self
  · rw [← hkept other.id (hapart other hother).1, ← hkept (other.renamed target).id (hapart other hother).2]
    exact rest.moved other hother
  · rw [rest.kept _ fun other hother => ⟨(hapart other hother).1.1.symm, (hapart other hother).2.1.symm⟩]
    exact first.gone set List.mem_cons_self
  · rw [rest.kept id fun other hother => hid other (List.mem_cons_of_mem _ hother)]
    exact hkept id (hid set List.mem_cons_self)

end Moves

/-- Some tile sets of a layer moved to another, one after the other. -/
theorem moves_foldl_moveTileSet {layer target : String} (ht : PlainName target) (hne : layer ≠ target) :
    ∀ (sets : List TileSet) (ledger : Ledger), ledger.Sound → sets.Nodup →
      (∀ set ∈ sets, ledger.tileSets[set.id]? = some set ∧ set.layer = layer) →
        (sets.foldl (fun ledger set => ledger.moveTileSet set target) ledger).Sound ∧
          Moves target sets ledger (sets.foldl (fun ledger set => ledger.moveTileSet set target) ledger) := by
  intro sets
  induction sets with
  | nil => exact fun ledger h _ _ => ⟨h, .nil target ledger⟩
  | cons first sets ih =>
    intro ledger h hnodup hsets
    rw [List.nodup_cons] at hnodup
    obtain ⟨⟨hfirst, hlayer⟩, hrest⟩ := List.forall_mem_cons.mp hsets
    have hplain : first.Plain := (h.set_of hfirst).2
    have hapart := fun (set : TileSet) (hset : set ∈ sets) =>
      ids_apart (h.set_of (hrest set hset).1).2 hplain ht ((hrest set hset).2.trans hlayer.symm) (hlayer.trans_ne hne)
        fun heq => hnodup.1 (heq ▸ hset)
    have hstep : Moves target [first] ledger (ledger.moveTileSet first target) :=
      .single h.keyed (id_ne_renamed hplain hplain ht (hlayer.trans_ne hne))
    obtain ⟨hsound, hmoves⟩ := ih (ledger.moveTileSet first target) (sound_moveTileSet h (hplain.renamed ht)) hnodup.2 (by
      intro set hset
      have hkept := hstep.kept set.id (List.forall_mem_singleton.mpr (hapart set hset).1)
      exact ⟨(congrArg Holding.set hkept).trans (hrest set hset).1, (hrest set hset).2⟩)
    exact ⟨hsound, hstep.cons hmoves hapart⟩

section Rename

variable {layer target : String} (h : ledger.Sound) (ht : PlainName target) (hne : layer ≠ target)

include h ht hne

/-- Renaming a layer moves its tile sets. -/
theorem moves_renameLayer : (ledger.renameLayer layer target).Sound ∧
    Moves target (ledger.tileSetsOf layer) ledger (ledger.renameLayer layer target) :=
  moves_foldl_moveTileSet ht hne _ ledger h (nodup_tileSetsOf h layer) fun _ hset => (mem_tileSetsOf h).mp hset

/-- A sound ledger is sound after a layer was renamed. -/
theorem sound_renameLayer : (ledger.renameLayer layer target).Sound := (moves_renameLayer h ht hne).1

/-- What was held of a tile set of the layer is held of its counterpart. -/
theorem holding_renameLayer_target {set : TileSet} (hset : ledger.tileSets[set.id]? = some set) (hlayer : set.layer = layer) :
    (ledger.renameLayer layer target).holding (set.renamed target).id =
      (ledger.holding set.id).onto (set.renamed target) (ledger.holding (set.renamed target).id) :=
  (moves_renameLayer h ht hne).2.moved set ((mem_tileSetsOf h).mpr ⟨hset, hlayer⟩)

/-- Nothing is held any more of a tile set of the layer. -/
theorem holding_renameLayer_source {set : TileSet} (hset : ledger.tileSets[set.id]? = some set) (hlayer : set.layer = layer) :
    (ledger.renameLayer layer target).holding set.id = .nothing :=
  (moves_renameLayer h ht hne).2.gone set ((mem_tileSetsOf h).mpr ⟨hset, hlayer⟩)

/-- Of all other identifiers the same is held as before. -/
theorem holding_renameLayer_other (id : String) (hid : ∀ set : TileSet, ledger.tileSets[set.id]? = some set →
    set.layer = layer → id ≠ set.id ∧ id ≠ (set.renamed target).id) :
    (ledger.renameLayer layer target).holding id = ledger.holding id :=
  (moves_renameLayer h ht hne).2.kept id fun set hset => hid set ((mem_tileSetsOf h).mp hset).1 ((mem_tileSetsOf h).mp hset).2

end Rename

/-- A tile set moved to its own layer. -/
theorem moveTileSet_self {set : TileSet} (h : ledger.Sound) (hset : ledger.tileSets[set.id]? = some set) :
    ledger.moveTileSet set set.layer = ledger := by
  rw [moveTileSet, (h.set_of hset).2.renamed_self, movePages_self h.keyed, moveUsage_self, Table.insert_erase_self hset]

/-- A layer renamed to itself. -/
theorem renameLayer_self (h : ledger.Sound) (layer : String) : ledger.renameLayer layer layer = ledger := by
  have hfold : ∀ sets : List TileSet, (∀ set ∈ sets, ledger.tileSets[set.id]? = some set ∧ set.layer = layer) →
      sets.foldl (fun ledger set => ledger.moveTileSet set layer) ledger = ledger := by
    intro sets
    induction sets with
    | nil => intro _; rfl
    | cons set sets ih =>
      intro hsets
      obtain ⟨hset, rfl⟩ := hsets set List.mem_cons_self
      rw [List.foldl_cons, moveTileSet_self h hset]
      exact ih fun other hother => hsets other (List.mem_cons_of_mem _ hother)
  exact hfold _ fun _ hset => (mem_tileSetsOf h).mp hset

end Ledger

end TileDepot
