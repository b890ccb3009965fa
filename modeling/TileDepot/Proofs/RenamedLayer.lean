import TileDepot.Proofs.PageRuns
import TileDepot.Proofs.Reload

/-!
# A layer renamed in a ledger

A layer is renamed tile set by tile set, and each takes its pages and its usage along to a new identifier. Where no tile set is in
the layer of the new name yet, the new identifiers are not in use, so that nothing is overwritten on the way: a ledger with
plain names holds the same as before, under other identifiers, and a renaming back gives the same ledger again.
-/

namespace TileDepot

namespace Table

variable {κ β : Type} [Ord κ] [Std.TransOrd κ] [Std.LawfulEqOrd κ]

/-- A table whose keys have moved, each to a key of its own, has as many entries as before. -/
theorem size_rekey {table moved : Std.ExtTreeMap κ β} (place : κ → κ) (hinj : ∀ a ∈ table, ∀ b ∈ table, place a = place b → a = b)
    (h : ∀ key, key ∈ moved ↔ ∃ origin ∈ table, place origin = key) : moved.size = table.size := by
  have hnodup : (table.keys.map place).Nodup :=
    List.Nodup.map_on (fun a ha b hb => hinj a (Std.ExtTreeMap.mem_keys.mp ha) b (Std.ExtTreeMap.mem_keys.mp hb))
      Std.ExtTreeMap.nodup_keys
  have hperm : moved.keys.Perm (table.keys.map place) := by
    refine (List.perm_ext_iff_of_nodup Std.ExtTreeMap.nodup_keys hnodup).mpr fun key => ?_
    simp only [Std.ExtTreeMap.mem_keys, h, List.mem_map]
  rw [← Std.ExtTreeMap.length_keys, ← Std.ExtTreeMap.length_keys, hperm.length_eq, List.length_map]

end Table

/-- A tile set once a layer is renamed. -/
def TileSet.relabelled (set : TileSet) (layer target : String) : TileSet :=
  if set.layer = layer then set.renamed target else set

/-- What is moved to a tile set of which nothing is held, and on to another one, could have been moved there at once. -/
theorem Holding.onto_onto (moved : Holding) (set set' : TileSet) :
    (moved.onto set .nothing).onto set' .nothing = moved.onto set' .nothing := by
  simp only [Holding.onto, Holding.nothing, Option.or_none, Option.map_map]
  rfl

namespace Ledger

variable {ledger : Ledger} {layer target : String} {set : TileSet}

/-- Ledgers that hold the same are the same. -/
theorem eq_of_holding {ledger' : Ledger} (h : ∀ id, ledger.holding id = ledger'.holding id) : ledger = ledger' := by
  obtain ⟨tileSets, pages, usage⟩ := ledger
  obtain ⟨tileSets', pages', usage'⟩ := ledger'
  refine mk.injEq .. ▸ ⟨?_, ?_, ?_⟩
  · exact Std.ExtTreeMap.ext_getElem? fun id => congrArg Holding.set (h id)
  · exact Std.ExtTreeMap.ext_getElem? fun key => pages_of_holding key (h key.tileSet)
  · exact Std.ExtTreeMap.ext_getElem? fun id => congrArg Holding.usage (h id)

/-- Nothing is held of a tile set that is not registered. -/
theorem Keyed.holding_of_none (h : ledger.Keyed) {id : String} (hid : ledger.tileSets[id]? = none) :
    ledger.holding id = .nothing := by
  have hnone : ∀ {found : TileSet}, ledger.tileSets[id]? ≠ some found := by
    rw [hid]
    exact nofun
  simp only [holding, Holding.nothing, Holding.mk.injEq]
  refine ⟨hid, ?_, ?_⟩
  · cases husage : ledger.usage[id]? with
    | none => rfl
    | some usage => exact absurd (h.usage_of husage).choose_spec hnone
  · funext zoom row column
    cases hpage : ledger.pages[(⟨id, zoom, row, column⟩ : PageKey)]? with
    | none => rfl
    | some entry => exact absurd (h.page_of hpage).2.choose_spec hnone

/-- What is held of a registered tile set, moved to where it is. -/
theorem Keyed.holding_onto_self (h : ledger.Keyed) (hset : ledger.tileSets[set.id]? = some set) :
    (ledger.holding set.id).onto set .nothing = ledger.holding set.id := by
  simp only [holding, Holding.onto, Holding.nothing, Option.or_none, Holding.mk.injEq, true_and]
  refine ⟨hset.symm, ?_⟩
  funext zoom row column
  cases hpage : ledger.pages[(⟨set.id, zoom, row, column⟩ : PageKey)]? with
  | none => rfl
  | some entry =>
    have hid : entry.page.tileSet = set.id := congrArg PageKey.tileSet (h.page_of hpage).1
    rw [Option.map_some, reassign, ← hid]

/-! ## Totals as sums -/

/-- All that is used, as the sum over the usage. -/
theorem usedInAll_eq (ledger : Ledger) :
    ledger.usedInAll = .ofBytes (Table.weigh ledger.usage fun _ usage => usage.used.bytes) := by
  rw [usedInAll, total_eq, Table.values_eq, List.map_map, List.map_map]
  rfl

/-- What a layer uses, as the sum over the usage whose tile sets are in it. -/
theorem Keyed.usedByLayer_eq (h : ledger.Keyed) (layer : String) : ledger.usedByLayer layer =
    .ofBytes (Table.weigh ledger.usage fun id usage => if ledger.layerOf? id = some layer then usage.used.bytes else 0) := by
  rw [← h.bytes_usedByLayer, usedByLayer, bytes_total, total_eq]

/-- The identifier of what stands under an identifier, once a layer is renamed. -/
def idAfter (ledger : Ledger) (layer target id : String) : String :=
  (ledger.tileSets[id]?).elim id fun set => (set.relabelled layer target).id

/-- A registered tile set has the identifier of its relabelled one after the renaming. -/
theorem idAfter_of_registered (hset : ledger.tileSets[set.id]? = some set) :
    ledger.idAfter layer target set.id = (set.relabelled layer target).id := by
  rw [idAfter, hset]
  rfl

/-- The tile sets of a layer in the order of their identifiers. -/
theorem tileSetsOf_eq (ledger : Ledger) (layer : String) :
    ledger.tileSetsOf layer = (ledger.tileSets.filter fun _ set => set.layer == layer).values := by
  rw [tileSetsOf, allTileSets, Table.values_eq, Table.values_eq, Std.ExtTreeMap.toList_filter, List.filter_map]
  rfl

/-! ## To a free name -/

section Free

variable (h : ledger.Sound) (ht : PlainName target) (hfree : ledger.tileSetsOf target = [])

include h hfree

/-- No registered tile set is in a layer whose name is free. -/
theorem layer_ne_of_free (hset : ledger.tileSets[set.id]? = some set) : set.layer ≠ target := by
  intro hlayer
  have hmem : set ∈ ledger.tileSetsOf target := (mem_tileSetsOf h).mpr ⟨hset, hlayer⟩
  rw [hfree] at hmem
  cases hmem

/-- Back in the old layer a tile set is what it was. -/
theorem relabelled_relabelled (hset : ledger.tileSets[set.id]? = some set) :
    (set.relabelled layer target).relabelled target layer = set := by
  unfold TileSet.relabelled
  by_cases hlayer : set.layer = layer
  · rw [if_pos hlayer, if_pos (show (set.renamed target).layer = target from rfl), ← hlayer]
    exact (h.set_of hset).2.renamed_self
  · rw [if_neg hlayer, if_neg (layer_ne_of_free h hfree hset)]

include ht

/-- The identifier that a tile set gets in the free layer is not in use. -/
theorem holding_renamed_of_free (hset : ledger.tileSets[set.id]? = some set) :
    ledger.holding (set.renamed target).id = .nothing := by
  refine h.keyed.holding_of_none (Option.eq_none_iff_forall_ne_some.mpr fun found hfound => ?_)
  obtain rfl := h.eq_of_id hfound ((h.set_of hset).2.renamed ht)
  exact layer_ne_of_free h hfree hfound rfl

/-- The tile sets stay apart. -/
theorem relabelled_inj {set' : TileSet} (hset : ledger.tileSets[set.id]? = some set)
    (hset' : ledger.tileSets[set'.id]? = some set') (heq : (set.relabelled layer target).id = (set'.relabelled layer target).id) :
    set = set' := by
  have hplain : ∀ {set : TileSet}, ledger.tileSets[set.id]? = some set → (set.relabelled layer target).Plain := by
    intro set hset
    unfold TileSet.relabelled
    split
    · exact (h.set_of hset).2.renamed ht
    · exact (h.set_of hset).2
  have hsame := (hplain hset).eq_of_id (hplain hset') heq
  rw [← relabelled_relabelled h hfree hset, hsame, relabelled_relabelled h hfree hset']

/-- What was held of a tile set is held of it once the layer is renamed, and nothing else is. -/
theorem holding_renameLayer (hset : ledger.tileSets[set.id]? = some set) :
    (ledger.renameLayer layer target).holding (set.relabelled layer target).id =
      (ledger.holding set.id).onto (set.relabelled layer target) .nothing := by
  unfold TileSet.relabelled
  by_cases hlayer : set.layer = layer
  · rw [if_pos hlayer, holding_renameLayer_target h ht (hlayer ▸ layer_ne_of_free h hfree hset) hset hlayer,
      holding_renamed_of_free h ht hfree hset]
  · rw [if_neg hlayer, h.keyed.holding_onto_self hset]
    by_cases hne : layer = target
    · rw [hne, renameLayer_self h]
    · refine holding_renameLayer_other h ht hne set.id fun other hother hl => ⟨fun heq => hlayer ?_, fun heq => ?_⟩
      · rw [(h.set_of hset).2.eq_of_id (h.set_of hother).2 heq, hl]
      · have hused := congrArg Holding.set (holding_renamed_of_free h ht hfree hother)
        rw [← heq] at hused
        cases hset.symm.trans hused

/-- The tile sets after the renaming are those from before, relabelled. -/
theorem registered_renameLayer {found : TileSet} {id : String} :
    (ledger.renameLayer layer target).tileSets[id]? = some found ↔
      ∃ set : TileSet, ledger.tileSets[set.id]? = some set ∧ set.relabelled layer target = found ∧ found.id = id := by
  constructor
  · intro hfound
    by_cases hne : layer = target
    · rw [hne, renameLayer_self h] at hfound
      obtain rfl := (h.set_of hfound).1
      have hlayer : found.layer ≠ layer := hne ▸ layer_ne_of_free h hfree hfound
      exact ⟨found, hfound, if_neg hlayer, rfl⟩
    by_cases hid : ∃ set : TileSet, ledger.tileSets[set.id]? = some set ∧ set.layer = layer ∧
        (id = set.id ∨ id = (set.renamed target).id)
    · obtain ⟨set, hset, hlayer, rfl | rfl⟩ := hid
      · have hgone := congrArg Holding.set (holding_renameLayer_source h ht hne hset hlayer)
        cases hfound.symm.trans hgone
      · have hmoved := congrArg Holding.set (holding_renameLayer_target h ht hne hset hlayer)
        obtain rfl := Option.some.inj (hfound.symm.trans hmoved)
        exact ⟨set, hset, if_pos hlayer, rfl⟩
    · have hother := holding_renameLayer_other h ht hne id fun set hset hlayer =>
        ⟨fun heq => hid ⟨set, hset, hlayer, Or.inl heq⟩, fun heq => hid ⟨set, hset, hlayer, Or.inr heq⟩⟩
      have hold : ledger.tileSets[id]? = some found := (congrArg Holding.set hother).symm.trans hfound
      obtain rfl := (h.set_of hold).1
      exact ⟨found, hold, if_neg fun hlayer => hid ⟨found, hold, hlayer, Or.inl rfl⟩, rfl⟩
  · rintro ⟨set, hset, rfl, rfl⟩
    exact congrArg Holding.set (holding_renameLayer h ht hfree hset)

/-- A renaming to a free name and back leaves the ledger as it was. -/
theorem renameLayer_renameLayer (hl : PlainName layer) :
    (ledger.renameLayer layer target).renameLayer target layer = ledger := by
  have hsound := h.renameLayer layer ht
  have hback : (ledger.renameLayer layer target).tileSetsOf layer = [] ∨ layer = target := by
    by_cases hne : layer = target
    · exact Or.inr hne
    · refine Or.inl (List.eq_nil_iff_forall_not_mem.mpr fun found hfound => ?_)
      obtain ⟨hfound, hlayer⟩ := (mem_tileSetsOf hsound).mp hfound
      obtain ⟨set, hset, rfl, -⟩ := (registered_renameLayer h ht hfree).mp hfound
      unfold TileSet.relabelled at hlayer
      split at hlayer
      · exact hne hlayer.symm
      · rename_i hother
        exact hother hlayer
  rcases hback with hback | rfl
  · refine eq_of_holding fun id => ?_
    cases hid : ledger.tileSets[id]? with
    | none =>
      rw [h.keyed.holding_of_none hid]
      refine (hsound.renameLayer target hl).keyed.holding_of_none (Option.eq_none_iff_forall_ne_some.mpr fun found hfound => ?_)
      obtain ⟨moved, hmoved, rfl, rfl⟩ := (registered_renameLayer hsound hl hback).mp hfound
      obtain ⟨set, hset, rfl, -⟩ := (registered_renameLayer h ht hfree).mp hmoved
      rw [relabelled_relabelled h hfree hset, hset] at hid
      cases hid
    | some set =>
      obtain rfl := (h.set_of hid).1
      have hmoved : (ledger.renameLayer layer target).tileSets[(set.relabelled layer target).id]? =
          some (set.relabelled layer target) := (registered_renameLayer h ht hfree).mpr ⟨set, hid, rfl, rfl⟩
      have hsecond : ((ledger.renameLayer layer target).renameLayer target layer).holding _ = _ :=
        holding_renameLayer hsound hl hback hmoved
      rw [relabelled_relabelled h hfree hid, holding_renameLayer h ht hfree hid, Holding.onto_onto,
        h.keyed.holding_onto_self hid] at hsecond
      exact hsecond
  · rw [renameLayer_self hsound, renameLayer_self h]

/-! ## Totals -/

/-- The usage of a tile set goes with it. -/
theorem usage_relabelled (hset : ledger.tileSets[set.id]? = some set) :
    (ledger.renameLayer layer target).usage[(set.relabelled layer target).id]? = ledger.usage[set.id]? :=
  (congrArg Holding.usage (holding_renameLayer h ht hfree hset)).trans Option.or_none

/-- The pages of a tile set go with it. -/
theorem pages_relabelled (hset : ledger.tileSets[set.id]? = some set) (zoom row column : Nat) :
    (ledger.renameLayer layer target).pages[(⟨(set.relabelled layer target).id, zoom, row, column⟩ : PageKey)]? =
      (ledger.pages[(⟨set.id, zoom, row, column⟩ : PageKey)]?).map (reassign · (set.relabelled layer target).id) :=
  (congrArg (fun holding : Holding => holding.page zoom row column) (holding_renameLayer h ht hfree hset)).trans Option.or_none

/-- Usage stands under the new identifiers, and is what it was. -/
theorem getElem?_usage_renameLayer (id : String) (usage : Usage) :
    (ledger.renameLayer layer target).usage[id]? = some usage ↔
      ∃ origin : String, ledger.usage[origin]? = some usage ∧ ledger.idAfter layer target origin = id := by
  constructor
  · intro husage
    obtain ⟨found, hfound⟩ := (h.renameLayer layer ht).usage_of husage
    obtain ⟨set, hset, rfl, rfl⟩ := (registered_renameLayer h ht hfree).mp hfound
    rw [usage_relabelled h ht hfree hset] at husage
    exact ⟨set.id, husage, idAfter_of_registered hset⟩
  · rintro ⟨origin, husage, rfl⟩
    obtain ⟨set, hset⟩ := h.usage_of husage
    obtain rfl := (h.set_of hset).1
    rwa [idAfter_of_registered hset, usage_relabelled h ht hfree hset]

/-- Pages stand under the keys with the new identifiers. -/
theorem mem_pages_renameLayer (key : PageKey) : key ∈ (ledger.renameLayer layer target).pages ↔
    ∃ origin ∈ ledger.pages, { origin with tileSet := ledger.idAfter layer target origin.tileSet } = key := by
  constructor
  · intro hkey
    obtain ⟨entry, hentry⟩ := Table.mem_iff_exists.mp hkey
    obtain ⟨found, hfound⟩ := ((h.renameLayer layer ht).page_of hentry).2
    obtain ⟨set, hset, rfl, hid⟩ := (registered_renameLayer h ht hfree).mp hfound
    obtain ⟨tileSet, zoom, row, column⟩ := key
    obtain rfl : (set.relabelled layer target).id = tileSet := hid
    rw [pages_relabelled h ht hfree hset] at hentry
    obtain ⟨origin, horigin, -⟩ := Option.map_eq_some_iff.mp hentry
    refine ⟨⟨set.id, zoom, row, column⟩, Table.mem_iff_exists.mpr ⟨origin, horigin⟩, ?_⟩
    rw [idAfter_of_registered hset]
  · rintro ⟨⟨tileSet, zoom, row, column⟩, horigin, rfl⟩
    obtain ⟨entry, hentry⟩ := Table.mem_iff_exists.mp horigin
    obtain ⟨set, hset⟩ := (h.page_of hentry).2
    obtain rfl : set.id = tileSet := (h.set_of hset).1
    rw [idAfter_of_registered hset]
    exact Table.mem_iff_exists.mpr ⟨_, by rw [pages_relabelled h ht hfree hset, hentry]; rfl⟩

/-- Registered identifiers stay apart. -/
theorem idAfter_inj {id id' : String} (hid : ∃ set, ledger.tileSets[id]? = some set)
    (hid' : ∃ set, ledger.tileSets[id']? = some set) (heq : ledger.idAfter layer target id = ledger.idAfter layer target id') :
    id = id' := by
  obtain ⟨set, hset⟩ := hid
  obtain ⟨set', hset'⟩ := hid'
  obtain rfl := (h.set_of hset).1
  obtain rfl := (h.set_of hset').1
  rw [idAfter_of_registered hset, idAfter_of_registered hset'] at heq
  rw [relabelled_inj h ht hfree hset hset' heq]

/-- As many pages are recorded after a layer was renamed as before. -/
theorem pageCount_renameLayer : (ledger.renameLayer layer target).pageCount = ledger.pageCount := by
  refine Table.size_rekey (fun key => { key with tileSet := ledger.idAfter layer target key.tileSet }) ?_
    (mem_pages_renameLayer h ht hfree)
  rintro ⟨tileSet, zoom, row, column⟩ hkey ⟨tileSet', zoom', row', column'⟩ hkey' heq
  obtain ⟨hid, rfl, rfl, rfl⟩ := PageKey.mk.inj heq
  obtain ⟨entry, hentry⟩ := Table.mem_iff_exists.mp hkey
  obtain ⟨entry', hentry'⟩ := Table.mem_iff_exists.mp hkey'
  have hsame : tileSet = tileSet' := idAfter_inj h ht hfree (h.page_of hentry).2 (h.page_of hentry').2 hid
  rw [hsame]

/-- A sum over the usage after the renaming is one over the usage before it. -/
theorem weigh_usage_renameLayer (measure : String → Usage → Int) :
    Table.weigh (ledger.renameLayer layer target).usage measure =
      Table.weigh ledger.usage fun id usage => measure (ledger.idAfter layer target id) usage := by
  refine Table.weigh_rekey _ _ (fun id hid id' hid' heq => ?_) (getElem?_usage_renameLayer h ht hfree)
  obtain ⟨usage, husage⟩ := Table.mem_iff_exists.mp hid
  obtain ⟨usage', husage'⟩ := Table.mem_iff_exists.mp hid'
  exact idAfter_inj h ht hfree (h.usage_of husage) (h.usage_of husage') heq

/-- All tile sets together use as much as before. -/
theorem usedInAll_renameLayer : (ledger.renameLayer layer target).usedInAll = ledger.usedInAll := by
  rw [usedInAll_eq, usedInAll_eq, weigh_usage_renameLayer h ht hfree]

/-- What a layer uses after the renaming is what the tile sets use that are in it then. -/
theorem usedByLayer_renameLayer (other : String) : (ledger.renameLayer layer target).usedByLayer other =
    .ofBytes (Table.weigh ledger.usage fun id usage =>
      if (ledger.layerOf? id).map (fun name => if name = layer then target else name) = some other then usage.used.bytes
      else 0) := by
  rw [(h.renameLayer layer ht).keyed.usedByLayer_eq, weigh_usage_renameLayer h ht hfree]
  refine congrArg ByteSize.ofBytes (Table.weigh_congr fun id usage husage => ?_)
  obtain ⟨set, hset⟩ := h.usage_of husage
  obtain rfl := (h.set_of hset).1
  have hmoved : (ledger.renameLayer layer target).tileSets[(set.relabelled layer target).id]? =
      some (set.relabelled layer target) := (registered_renameLayer h ht hfree).mpr ⟨set, hset, rfl, rfl⟩
  have hlayer : (set.relabelled layer target).layer = if set.layer = layer then target else set.layer := by
    unfold TileSet.relabelled
    split <;> rfl
  simp only [layerOf?, idAfter_of_registered hset, hmoved, hset, Option.map_some, hlayer]

/-- The target uses what the layer has used. -/
theorem usedByLayer_target : (ledger.renameLayer layer target).usedByLayer target = ledger.usedByLayer layer := by
  rw [usedByLayer_renameLayer h ht hfree, h.keyed.usedByLayer_eq]
  refine congrArg ByteSize.ofBytes (Table.weigh_congr fun id usage husage => if_congr ?_ rfl rfl)
  obtain ⟨set, hset⟩ := h.usage_of husage
  obtain rfl := (h.set_of hset).1
  have hne := layer_ne_of_free h hfree hset
  rw [layerOf?, hset, Option.map_some, Option.map_some, Option.some_inj, Option.some_inj]
  by_cases hlayer : set.layer = layer
  · rw [if_pos hlayer]
    exact iff_of_true rfl hlayer
  · rw [if_neg hlayer]
    exact iff_of_false hne hlayer

/-- The layer uses nothing any more. -/
theorem usedByLayer_source : (ledger.renameLayer layer target).usedByLayer layer = .zero := by
  rw [usedByLayer_renameLayer h ht hfree, Table.weigh_eq_zero, ByteSize.ofBytes_zero]
  intro id usage husage
  obtain ⟨set, hset⟩ := h.usage_of husage
  obtain rfl := (h.set_of hset).1
  refine if_neg fun heq => ?_
  rw [layerOf?, hset, Option.map_some, Option.map_some, Option.some_inj] at heq
  split at heq
  · rename_i hlayer
    exact layer_ne_of_free h hfree hset (hlayer.trans heq.symm)
  · rename_i hlayer
    exact hlayer heq

section Other

variable {other : String} (hlayer : other ≠ layer) (htarget : other ≠ target)

include hlayer htarget

/-- The other layers use what they have used. -/
theorem usedByLayer_other : (ledger.renameLayer layer target).usedByLayer other = ledger.usedByLayer other := by
  rw [usedByLayer_renameLayer h ht hfree, h.keyed.usedByLayer_eq]
  refine congrArg ByteSize.ofBytes (Table.weigh_congr fun id usage husage => if_congr ?_ rfl rfl)
  obtain ⟨set, hset⟩ := h.usage_of husage
  rw [layerOf?, hset, Option.map_some, Option.map_some, Option.some_inj, Option.some_inj]
  by_cases hmoved : set.layer = layer
  · rw [if_pos hmoved]
    exact iff_of_false htarget.symm (hmoved.trans_ne hlayer.symm)
  · rw [if_neg hmoved]

/-- The other layers have the tile sets that they had. -/
theorem tileSetsOf_other : (ledger.renameLayer layer target).tileSetsOf other = ledger.tileSetsOf other := by
  rw [tileSetsOf_eq, tileSetsOf_eq]
  refine congrArg Std.ExtTreeMap.values (Std.ExtTreeMap.ext_getElem? fun id => Option.ext fun found => ?_)
  rw [Std.ExtTreeMap.getElem?_filter', Std.ExtTreeMap.getElem?_filter', Option.filter_eq_some_iff, Option.filter_eq_some_iff,
    beq_iff_eq, registered_renameLayer h ht hfree]
  constructor
  · rintro ⟨⟨set, hset, rfl, rfl⟩, hother⟩
    unfold TileSet.relabelled at hother ⊢
    split at hother
    · exact absurd hother htarget.symm
    · rename_i hkept
      rw [if_neg hkept]
      exact ⟨hset, hother⟩
  · rintro ⟨hset, rfl⟩
    obtain rfl := (h.set_of hset).1
    exact ⟨⟨found, hset, if_neg hlayer, rfl⟩, rfl⟩

omit htarget in
/-- What is held of the other layers stays what it is. -/
theorem holding_other (hset : set ∈ ledger.tileSetsOf other) :
    (ledger.renameLayer layer target).holding set.id = ledger.holding set.id := by
  obtain ⟨hregistered, rfl⟩ := (mem_tileSetsOf h).mp hset
  have hheld : (ledger.renameLayer layer target).holding _ = _ := holding_renameLayer h ht hfree hregistered
  have hkept : set.relabelled layer target = set := if_neg hlayer
  rwa [hkept, h.keyed.holding_onto_self hregistered] at hheld

/-- The other layers have the pages that they had. -/
theorem pagesOfLayer_other : (ledger.renameLayer layer target).pagesOfLayer other = ledger.pagesOfLayer other := by
  rw [pagesOfLayer, pagesOfLayer, tileSetsOf_other h ht hfree hlayer htarget]
  exact List.flatMap_congr fun set hset => pagesOf_congr (holding_other h ht hfree hlayer hset)

end Other

end Free

/-! ## Renamed and renamed back -/

/-- What a renaming of a layer to a free name keeps: all of the layer is found under the new name, page by page and in the same
order, nothing is left under the old name, the totals and the other layers are what they were, and a renaming back restores
all. -/
structure Conserves (ledger after : Ledger) (layer target : String) : Prop where
  used_target : after.usedByLayer target = ledger.usedByLayer layer
  used_source : after.usedByLayer layer = .zero
  used_in_all : after.usedInAll = ledger.usedInAll
  page_count : after.pageCount = ledger.pageCount
  tileSets_target : ∀ set, set ∈ after.tileSetsOf target ↔ ∃ old ∈ ledger.tileSetsOf layer, old.renamed target = set
  page_target : ∀ set ∈ ledger.tileSetsOf layer, ∀ zoom row column : Nat,
    after.pages[(⟨(set.renamed target).id, zoom, row, column⟩ : PageKey)]? =
      (ledger.pages[(⟨set.id, zoom, row, column⟩ : PageKey)]?).map (reassign · (set.renamed target).id)
  pages_target : ∀ set ∈ ledger.tileSetsOf layer,
    after.pagesOf (set.renamed target).id = (ledger.pagesOf set.id).map (reassign · (set.renamed target).id)
  usage_target : ∀ set ∈ ledger.tileSetsOf layer, after.usageOf (set.renamed target).id = ledger.usageOf set.id
  nothing_left : ∀ set ∈ ledger.tileSetsOf layer, after.holding set.id = .nothing
  other : ∀ other, other ≠ layer → other ≠ target →
    after.tileSetsOf other = ledger.tileSetsOf other ∧ after.pagesOfLayer other = ledger.pagesOfLayer other ∧
      after.usedByLayer other = ledger.usedByLayer other ∧
      ∀ set ∈ ledger.tileSetsOf other, after.holding set.id = ledger.holding set.id
  restored : after.renameLayer target layer = ledger

/-- A layer of a ledger with plain names, renamed to a plain name that no tile set is registered under. -/
theorem renameLayer_conserves (h : ledger.Plain) (hl : PlainName layer) (ht : PlainName target)
    (hfree : ledger.tileSetsOf target = []) : ledger.Conserves (ledger.renameLayer layer target) layer target := by
  have hsound := h.sound
  have hmoved : ∀ set ∈ ledger.tileSetsOf layer,
      ledger.tileSets[set.id]? = some set ∧ set.relabelled layer target = set.renamed target := fun set hset =>
    ⟨((mem_tileSetsOf hsound).mp hset).1, if_pos ((mem_tileSetsOf hsound).mp hset).2⟩
  refine ⟨usedByLayer_target hsound ht hfree, usedByLayer_source hsound ht hfree, usedInAll_renameLayer hsound ht hfree,
    pageCount_renameLayer hsound ht hfree, fun set => ?_, fun set hset => ?_, fun set hset => ?_, fun set hset => ?_,
    fun set hset => ?_, fun other hlayer htarget => ?_, renameLayer_renameLayer hsound ht hfree hl⟩
  · rw [mem_tileSetsOf (hsound.renameLayer layer ht), registered_renameLayer hsound ht hfree]
    constructor
    · rintro ⟨⟨old, hold, rfl, -⟩, hlayer⟩
      unfold TileSet.relabelled at hlayer ⊢
      split at hlayer
      · rename_i hmember
        rw [if_pos hmember]
        exact ⟨old, (mem_tileSetsOf hsound).mpr ⟨hold, hmember⟩, rfl⟩
      · exact absurd hlayer (layer_ne_of_free hsound hfree hold)
    · rintro ⟨old, hold, rfl⟩
      exact ⟨⟨old, (hmoved old hold).1, (hmoved old hold).2, rfl⟩, rfl⟩
  · obtain ⟨hset, hrenamed⟩ := hmoved set hset
    rw [← hrenamed]
    exact pages_relabelled hsound ht hfree hset
  · obtain ⟨hset, hrenamed⟩ := hmoved set hset
    rw [← hrenamed]
    exact pagesOf_reassigned (pages_relabelled hsound ht hfree hset)
  · obtain ⟨hset, hrenamed⟩ := hmoved set hset
    rw [usageOf, usageOf, Std.ExtTreeMap.getD_eq_getD_getElem?, Std.ExtTreeMap.getD_eq_getD_getElem?, ← hrenamed,
      usage_relabelled hsound ht hfree hset]
  · obtain ⟨hset, hlayer⟩ := (mem_tileSetsOf hsound).mp hset
    exact holding_renameLayer_source hsound ht (hlayer ▸ layer_ne_of_free hsound hfree hset) hset hlayer
  · exact ⟨tileSetsOf_other hsound ht hfree hlayer htarget, pagesOfLayer_other hsound ht hfree hlayer htarget,
      usedByLayer_other hsound ht hfree hlayer htarget, fun set hset => holding_other hsound ht hfree hlayer hset⟩

/-- Two tile sets of the roads, one of them with two pages, become tile sets of the streets; the lanes stay. -/
theorem renameLayer_conserves_roads :
    let roads := TileSet.of "roads" "grid" "png" none
    let night := TileSet.of "roads" "grid" "png" (some "night")
    let lanes := TileSet.of "lanes" "grid" "png" none
    let ledger := empty.serve [.addTiles roads ⟨roads.id, 1, 2, 3, 900⟩ rfl 3 16 1536 1000,
      .addHits roads ⟨roads.id, 0, 0, 1, 901⟩ rfl 5 1003, .addTiles night ⟨night.id, 1, 2, 3, 902⟩ rfl 1 16 512 1004,
      .addTiles lanes ⟨lanes.id, 1, 2, 3, 903⟩ rfl 2 16 700 1005]
    (ledger.usedByLayer "roads").bytes = 2048 ∧ ledger.pageCount = 4 ∧ ledger.tileSetsOf "streets" = [] ∧
      ((ledger.renameLayer "roads" "streets").pagesOf "streets#grid#png").map (fun entry => (entry.page.created, entry.stats.hits)) =
        [(901, 5), (900, 0)] ∧
      ledger.Conserves (ledger.renameLayer "roads" "streets") "roads" "streets" := by
  intro roads night lanes ledger
  have hroads : roads.Plain := .of none (by decide) (by decide) (by decide)
  have hnight : night.Plain := .of (some "night") (by decide) (by decide) (by decide)
  have hlanes : lanes.Plain := .of none (by decide) (by decide) (by decide)
  have hplain : ledger.Plain := Plain.empty.serve (by
    simpa only [List.forall_mem_cons] using ⟨hroads, hroads, hnight, hlanes, List.forall_mem_nil _⟩)
  have hfree : ledger.tileSetsOf "streets" = [] := by decide +kernel
  exact ⟨by decide +kernel, by decide +kernel, hfree, by decide +kernel,
    renameLayer_conserves hplain (by decide) (by decide) hfree⟩

end Ledger

end TileDepot
