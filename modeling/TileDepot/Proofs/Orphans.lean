import TileDepot.Proofs.Ledger

/-!
# Nothing in a ledger is orphaned

Whatever tile sets are called, and however many tiles and bytes are said to come and go: after any calls every page and every
usage has its tile set, every entry stands under its own key, and no usage is below zero. So what layers use adds up to what
is used in all, and a deletion takes the tile sets it is about with everything held of them, and nothing else. Where a sum that
leaves its word does not wrap around but stops the call, the call may leave bytes below zero, and still nothing is orphaned.
-/

namespace TileDepot

/-- What a ledger is asked to change. A page that something is recorded on is one of the tile set it is recorded for. -/
inductive LedgerCall where
  | register (set : TileSet)
  | addHits (set : TileSet) (page : Page) (hpage : page.tileSet = set.id) (hits : Nat) (now : Int)
  | addTiles (set : TileSet) (page : Page) (hpage : page.tileSet = set.id) (tiles : Int) (slots : Nat) (bytes now : Int)
  | setTruncated (set : TileSet) (page : Page) (hpage : page.tileSet = set.id) (now : Int)
  | deleteLayer (layer : String)
  | deleteGridset (layer gridset : String)
  | deleteParameters (layer parameters : String)
  | renameLayer (layer target : String)

namespace Ledger

variable {ledger : Ledger}

/-- The ledger after a call. -/
def perform (ledger : Ledger) : LedgerCall → Ledger
  | .register set => ledger.register set
  | .addHits set page _ hits now => (ledger.addHits set page hits now).2
  | .addTiles set page _ tiles slots bytes now => (ledger.addTiles set page tiles slots bytes now).2
  | .setTruncated set page _ now => ledger.setTruncated set page now
  | .deleteLayer layer => (ledger.deleteLayer layer).2
  | .deleteGridset layer gridset => (ledger.deleteGridset layer gridset).2
  | .deleteParameters layer parameters => (ledger.deleteParameters layer parameters).2
  | .renameLayer layer target => ledger.renameLayer layer target

/-- The ledger after some calls. -/
def serve (ledger : Ledger) (calls : List LedgerCall) : Ledger := calls.foldl perform ledger

/-- A keyed ledger whose usages are all of an allowed kind. -/
structure Allots (allowed : Usage → Prop) (ledger : Ledger) : Prop extends Keyed ledger where
  usage_allowed : ∀ {id : String} {usage : Usage}, ledger.usage[id]? = some usage → allowed usage

/-- A keyed ledger in which no usage is below zero. -/
abbrev Intact (ledger : Ledger) : Prop := ledger.Allots fun usage => 0 ≤ usage.used.bytes ∧ 0 ≤ usage.tiles

/-- An empty ledger allots nothing. -/
theorem allots_empty (allowed : Usage → Prop) : empty.Allots allowed := ⟨sound_empty.keyed, fun h => by simp [empty] at h⟩

/-! ## Usage -/

/-- Usage is moved as it is. -/
theorem exists_of_moveUsage {table : Std.ExtTreeMap String Usage} {source target id : String} {usage : Usage}
    (h : (moveUsage table source target)[id]? = some usage) : ∃ origin : String, table[origin]? = some usage := by
  by_cases hne : source = target
  · rw [hne, moveUsage_self] at h
    exact ⟨id, h⟩
  · rw [getElem?_moveUsage table hne] at h
    split at h
    · rcases Option.or_eq_some_iff.mp h with hmoved | ⟨-, hold⟩
      · exact ⟨source, hmoved⟩
      · exact ⟨id, hold⟩
    · split at h
      · cases h
      · exact ⟨id, h⟩

/-! ## One call -/

/-- What is kept when a tile set is moved to a layer is kept when a whole layer is. -/
theorem renameLayer_of_moveTileSet {P : Ledger → Prop} (layer : String) {target : String}
    (hmove : ∀ (ledger : Ledger) (set : TileSet), P ledger → P (ledger.moveTileSet set target)) (h : P ledger) :
    P (ledger.renameLayer layer target) := by
  unfold Ledger.renameLayer
  generalize ledger.tileSetsOf layer = sets
  induction sets generalizing ledger with
  | nil => exact h
  | cons set sets ih => exact ih (hmove ledger set h)

namespace Allots

variable {allowed : Usage → Prop} {record : Usage → Int → Int → Usage} {set : TileSet} {page : Page}

/-- What is allotted stays allowed when tile sets are dropped. -/
theorem drop (h : ledger.Allots allowed) (doomed : TileSet → Bool) : (ledger.drop doomed).2.Allots allowed := by
  refine ⟨h.toKeyed.drop doomed, fun {id usage} husage => ?_⟩
  change (ledger.usage.filter _)[id]? = some usage at husage
  rw [Std.ExtTreeMap.getElem?_filter', Option.filter_eq_some_iff] at husage
  exact h.usage_allowed husage.1

/-- What is allotted stays allowed when tiles come or go, if every record is. -/
theorem addTilesBy (h : ledger.Allots allowed) (hrecord : ∀ usage tiles bytes, allowed (record usage tiles bytes))
    (hpage : page.tileSet = set.id) (tiles : Int) (slots : Nat) (bytes now : Int) :
    (ledger.addTilesBy record set page tiles slots bytes now).2.Allots allowed := by
  refine ⟨h.toKeyed.addTilesBy record hpage tiles slots bytes now, fun husage => ?_⟩
  rw [usage_addTilesBy] at husage
  split at husage
  · exact Option.some.inj husage ▸ hrecord _ tiles bytes
  · exact h.usage_allowed husage

/-- What is allotted stays allowed when a tile set is moved. -/
theorem moveTileSet (h : ledger.Allots allowed) (set : TileSet) (target : String) :
    (ledger.moveTileSet set target).Allots allowed := by
  refine ⟨h.toKeyed.moveTileSet set target, fun husage => ?_⟩
  obtain ⟨origin, hold⟩ := exists_of_moveUsage husage
  exact h.usage_allowed hold

/-- What is allotted stays allowed when a layer is renamed. -/
theorem renameLayer (h : ledger.Allots allowed) (layer target : String) : (ledger.renameLayer layer target).Allots allowed :=
  renameLayer_of_moveTileSet layer (fun _ set hmoved => hmoved.moveTileSet set target) h

/-- Every call leaves a ledger keyed, and its usages of the allowed kind if what is recorded always is. -/
theorem perform (h : ledger.Allots allowed) (hrecord : ∀ usage tiles bytes, allowed (Usage.recordInWords usage tiles bytes))
    (call : LedgerCall) : (ledger.perform call).Allots allowed := by
  cases call with
  | register set => exact ⟨h.toKeyed.register set, h.usage_allowed⟩
  | addHits set page hpage hits now => exact ⟨h.toKeyed.changeStats hpage now _, h.usage_allowed⟩
  | addTiles set page hpage tiles slots bytes now => exact h.addTilesBy hrecord hpage tiles slots bytes now
  | setTruncated set page hpage now => exact ⟨h.toKeyed.changeStats hpage now _, h.usage_allowed⟩
  | deleteLayer layer => exact h.drop _
  | deleteGridset layer gridset => exact h.drop _
  | deleteParameters layer parameters => exact h.drop _
  | renameLayer layer target => exact h.renameLayer layer target

end Allots

/-- Totals that are cut off at zero are not below it. -/
theorem ofTotals_nonneg (bytes tiles : Int) :
    0 ≤ (Usage.ofTotals bytes tiles).used.bytes ∧ 0 ≤ (Usage.ofTotals bytes tiles).tiles := by
  rw [Usage.ofTotals_eq]
  exact ⟨Int.le_max_right _ _, Int.le_max_right _ _⟩

/-- An intact ledger stays intact: what is recorded never falls below zero, whatever it was before. -/
theorem Intact.perform (h : ledger.Intact) (call : LedgerCall) : (ledger.perform call).Intact :=
  Allots.perform h (fun _ _ _ => ofTotals_nonneg _ _) call

/-- A ledger stays intact with any calls. -/
theorem Intact.serve (h : ledger.Intact) (calls : List LedgerCall) : (ledger.serve calls).Intact :=
  List.foldlRecOn (motive := Intact) calls Ledger.perform h fun _ hbefore call _ => hbefore.perform call

/-! ## Calls that are stopped -/

/-- The pages of doomed tile sets. -/
def doomedPages (ledger : Ledger) (doomed : TileSet → Bool) : Std.ExtTreeMap PageKey PageEntry :=
  ledger.pages.filter fun key _ => (ledger.tileSets[key.tileSet]?).any doomed

/-- What comes of a deletion, the number it returns and the ledger it leaves: nothing is held of a doomed tile set any more,
everything else is held as before, and the pages that went are counted. -/
structure Deletes (ledger : Ledger) (doomed : TileSet → Bool) (outcome : Nat × Ledger) : Prop where
  gone : ∀ id, ledger.Doomed doomed id → outcome.2.holding id = .nothing
  kept : ∀ id, ¬ledger.Doomed doomed id → outcome.2.holding id = ledger.holding id
  counted : outcome.1 = (ledger.doomedPages doomed).size

/-- As many pages are said to go as are doomed. -/
theorem Keyed.count_drop (h : ledger.Keyed) (doomed : TileSet → Bool) :
    (ledger.drop doomed).1 = (ledger.doomedPages doomed).size := by
  have hids : ∀ id, (Std.ExtTreeMap.ofList
      ((ledger.tileSets.filter fun _ set => doomed set).values.map fun set => (set.id, ()))).contains id =
        (ledger.tileSets[id]?).any doomed := by
    intro id
    rw [Bool.eq_iff_iff, contains_goneIds h doomed id, Option.any_eq_true]
    rfl
  simp only [Ledger.drop, hids, doomedPages]
  exact Table.size_sub_size_filter_not _ _

/-- To drop tile sets deletes all that is held of them, and nothing else. -/
theorem Keyed.deletes_drop (h : ledger.Keyed) (doomed : TileSet → Bool) : ledger.Deletes doomed (ledger.drop doomed) :=
  ⟨fun _ => holding_drop_of_doomed h doomed, fun _ => holding_drop_of_not_doomed h doomed, h.count_drop doomed⟩

/-! ## All calls -/

/-- A ledger in which nothing is orphaned: it is keyed, what its layers use adds up to what is used in all, and each deletion takes
exactly what is held of the tile sets it is about. -/
structure Orderly (ledger : Ledger) : Prop where
  keyed : ledger.Keyed
  adds_up : ledger.usedInAll = total (ledger.layerNames.map ledger.usedByLayer)
  deletes_layer : ∀ layer, ledger.Deletes (fun set => set.layer == layer) (ledger.deleteLayer layer)
  deletes_gridset : ∀ layer gridset, ledger.Deletes (fun set => set.layer == layer && set.gridset == gridset)
    (ledger.deleteGridset layer gridset)
  deletes_parameters : ∀ layer parameters, ledger.Deletes
    (fun set => set.layer == layer && set.parameters == some parameters) (ledger.deleteParameters layer parameters)

/-- A ledger with everything under its own key is orderly. -/
theorem Keyed.orderly (h : ledger.Keyed) : ledger.Orderly where
  keyed := h
  adds_up := h.total_usedByLayer.symm
  deletes_layer _ := h.deletes_drop _
  deletes_gridset _ _ := h.deletes_drop _
  deletes_parameters _ _ := h.deletes_drop _

end Ledger

end TileDepot
