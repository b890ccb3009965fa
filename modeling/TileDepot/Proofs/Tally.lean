import TileDepot.Proofs.Kept

/-!
# Usage is tallied

A ledger is tallied when the usage of every tile set is the sum over its covered tiles. Every event that a store tells leaves
a tallied ledger tallied, and because the sums never fall below zero, the cut at zero in `Usage.record` cuts nothing off. The
same goes for a ledger in which no usage falls short of the sum, as it is after a store has been cleared.
-/

namespace TileDepot

/-- The sum of an amount over the covered tiles of the tile set of an identifier. -/
def CoverageTable.sumOf (table : CoverageTable) (amount : Nat → Int) (id : String) (sizes : Sizes) : Int :=
  Table.weigh sizes fun key size => if key.tileSet.id = id ∧ table.covers key = true then amount size else 0

/-- A usage with tiles and bytes added, or taken away when negative, whatever comes of it. -/
def Usage.tally (usage : Usage) (tiles bytes : Int) : Usage := ⟨usage.used.addBytes bytes, usage.tiles + tiles⟩

/-- Where neither tiles nor bytes fall below zero, nothing is cut off. -/
theorem Usage.record_eq_tally {usage : Usage} {tiles bytes : Int} (hbytes : 0 ≤ usage.used.bytes + bytes)
    (htiles : 0 ≤ usage.tiles + tiles) : usage.record tiles bytes = usage.tally tiles bytes := by
  rw [record, Usage.ofTotals_eq, Int.max_eq_left hbytes, Int.max_eq_left htiles]
  rfl

/-- A ledger whose usage is that of the covered tiles of a store. -/
structure Tallied (table : CoverageTable) (rounded : Nat → Nat) (sizes : Sizes) (ledger : Ledger) : Prop extends
    Kept sizes ledger where
  used : ∀ id, (ledger.usageOf id).used.bytes = table.sumOf (fun size => rounded size) id sizes
  tiles : ∀ id, (ledger.usageOf id).tiles = table.sumOf (fun _ => 1) id sizes

/-- A ledger whose usage is related in some way to that of the covered tiles of a store. -/
structure Follows (relation : Int → Int → Prop) (table : CoverageTable) (rounded : Nat → Nat) (sizes : Sizes) (ledger : Ledger) :
    Prop extends Kept sizes ledger where
  used : ∀ id, relation (ledger.usageOf id).used.bytes (table.sumOf (fun size => rounded size) id sizes)
  tiles : ∀ id, relation (ledger.usageOf id).tiles (table.sumOf (fun _ => 1) id sizes)

/-- A relation in which a number stands only to numbers that are no greater, whatever is added to both. -/
structure Ample (relation : Int → Int → Prop) : Prop where
  le : ∀ {usage sum : Int}, relation usage sum → sum ≤ usage
  zero : relation 0 0
  trans : ∀ {a b c : Int}, relation a b → relation b c → relation a c
  add : ∀ {usage sum : Int}, relation usage sum → ∀ growth, relation (usage + growth) (sum + growth)

theorem ample_eq : Ample Eq := ⟨fun h => h.ge, rfl, Eq.trans, fun h _ => by rw [h]⟩

theorem ample_ge : Ample fun usage sum => sum ≤ usage :=
  ⟨id, Int.le_refl 0, fun h h' => Int.le_trans h' h, fun h growth => Int.add_le_add_right h growth⟩

namespace CoverageTable

variable {table : CoverageTable} {amount : Nat → Int} {sizes : Sizes}

theorem sumOf_nonneg (table : CoverageTable) (sizes : Sizes) (h : ∀ size, 0 ≤ amount size) (id : String) :
    0 ≤ table.sumOf amount id sizes := by
  refine Table.weigh_nonneg fun key size _ => ?_
  split
  · exact h size
  · exact Int.le_refl 0

/-- An amount that grows with an event grows in the tile set of the tile of the event, if the tile is covered. -/
theorem sumOf_tells {event : Event} {before after : Sizes} {tile : TileKey} (h : event.Tells before after)
    (htile : event.tile? = some tile) (id : String) :
    table.sumOf amount id after =
      table.sumOf amount id before + if tile.tileSet.id = id ∧ table.covers tile = true then event.growth amount else 0 :=
  h.weigh_tile htile (fun key => key.tileSet.id = id ∧ table.covers key = true) amount

/-- Where no tile of the tile set of an identifier is covered, every sum is nothing. -/
theorem sumOf_eq_zero {id : String} (h : ∀ key ∈ sizes, key.tileSet.id = id → table.covers key = false) :
    table.sumOf amount id sizes = 0 := by
  refine Table.weigh_eq_zero fun key size hkey => if_neg ?_
  rintro ⟨hid, hcovers⟩
  rw [h key (Table.mem_iff_exists.mpr ⟨size, hkey⟩) hid] at hcovers
  cases hcovers

end CoverageTable

namespace Follows

variable {relation : Int → Int → Prop} {table : CoverageTable} {rounded : Nat → Nat} {before after sizes : Sizes}
  {ledger : Ledger} {event : Event}

/-- The tile set of a covered tile is registered. -/
theorem registered (hample : Ample relation) (h : Follows relation table rounded sizes ledger) {key : TileKey} (hkey : key ∈ sizes)
    (hcovers : table.covers key = true) : ledger.tileSets[key.tileSet.id]? = some key.tileSet := by
  obtain ⟨size, hsize⟩ := Table.mem_iff_exists.mp hkey
  have hone : (1 : Int) ≤ table.sumOf (fun _ => 1) key.tileSet.id sizes := by
    have hle := Table.le_weigh (fun other _ =>
      if other.tileSet.id = key.tileSet.id ∧ table.covers other = true then (1 : Int) else 0) hsize
      (fun other _ _ => by split <;> omega)
    rwa [if_pos ⟨rfl, hcovers⟩] at hle
  have htiles := hample.le (h.tiles key.tileSet.id)
  cases husage : ledger.usage[key.tileSet.id]? with
  | none =>
    rw [Ledger.usageOf, Std.ExtTreeMap.getD_eq_getD_getElem?, husage] at htiles
    change _ ≤ (0 : Int) at htiles
    omega
  | some usage =>
    obtain ⟨set, hset⟩ := h.sound.usage_of husage
    rw [hset, h.sound.eq_of_id hset (h.plain hkey).tileSet]

theorem empty (hample : Ample relation) (table : CoverageTable) (rounded : Nat → Nat) :
    Follows relation table rounded ∅ .empty where
  plain h := by simp at h
  sound := Ledger.sound_empty
  used id := by simpa [CoverageTable.sumOf, Ledger.usageOf, Ledger.empty, Usage.none] using hample.zero
  tiles id := by simpa [CoverageTable.sumOf, Ledger.usageOf, Ledger.empty, Usage.none] using hample.zero

/-- With an event about a covered tile neither the tiles nor the bytes of its tile set fall below zero. -/
theorem growth_nonneg (hample : Ample relation) (h : Follows relation table rounded before ledger)
    (htells : event.Tells before after) {tile : TileKey} (htile : event.tile? = some tile) (hcovers : table.covers tile = true) :
    0 ≤ (ledger.usageOf tile.tileSet.id).used.bytes + event.growth (fun size => rounded size) ∧
      0 ≤ (ledger.usageOf tile.tileSet.id).tiles + event.growth fun _ => 1 := by
  have hbytes := table.sumOf_nonneg after (fun size => Int.natCast_nonneg (rounded size)) tile.tileSet.id
  have htiles := table.sumOf_nonneg after (fun _ => Int.one_nonneg) tile.tileSet.id
  rw [CoverageTable.sumOf_tells htells htile, if_pos ⟨rfl, hcovers⟩] at hbytes htiles
  have hused := hample.le (h.used tile.tileSet.id)
  have hcounted := hample.le (h.tiles tile.tileSet.id)
  exact ⟨by omega, by omega⟩

/-- Events about one tile. -/
theorem heard_tile (hample : Ample relation) (h : Follows relation table rounded before ledger)
    (htells : event.Tells before after) (hadmissible : event.Admissible table) {tile : TileKey}
    (htile : event.tile? = some tile) (now : Int) :
    Follows relation table rounded after (ledger.heard table rounded event now) := by
  have hkept := h.toKept.heard rounded htells hadmissible now
  have hsum : ∀ amount id, table.sumOf amount id after = table.sumOf amount id before +
      if tile.tileSet.id = id ∧ table.covers tile = true then event.growth amount else 0 := fun amount id =>
    CoverageTable.sumOf_tells htells htile id
  rw [Ledger.heard_of_tile htile] at hkept ⊢
  unfold Ledger.recorded at hkept ⊢
  cases hlevel : table.levelOf? tile with
  | none =>
    have huncovered : ¬table.covers tile = true := by simp [CoverageTable.covers, hlevel]
    rw [hlevel] at hkept
    refine ⟨hkept, fun id => ?_, fun id => ?_⟩
    · rw [hsum, if_neg fun hboth => huncovered hboth.2, Int.add_zero]
      exact h.used id
    · rw [hsum, if_neg fun hboth => huncovered hboth.2, Int.add_zero]
      exact h.tiles id
  | some level =>
    have hcovers : table.covers tile = true := by simp [CoverageTable.covers, hlevel]
    rw [hlevel] at hkept
    obtain ⟨hbytes, htiles⟩ := h.growth_nonneg hample htells htile hcovers
    have hrecord := Usage.record_eq_tally hbytes htiles
    refine ⟨hkept, fun id => ?_, fun id => ?_⟩
    · rw [hsum, Ledger.usageOf_addTilesBy]
      by_cases hid : tile.tileSet.id = id
      · subst hid
        rw [if_pos rfl, if_pos ⟨rfl, hcovers⟩, hrecord]
        exact hample.add (h.used tile.tileSet.id) _
      · rw [if_neg hid, if_neg fun hboth => hid hboth.1, Int.add_zero]
        exact h.used id
    · rw [hsum, Ledger.usageOf_addTilesBy]
      by_cases hid : tile.tileSet.id = id
      · subst hid
        rw [if_pos rfl, if_pos ⟨rfl, hcovers⟩, hrecord]
        exact hample.add (h.tiles tile.tileSet.id) _
      · rw [if_neg hid, if_neg fun hboth => hid hboth.1, Int.add_zero]
        exact h.tiles id

/-! ## Events about all the tiles of some tile sets -/

theorem usageOf_of_holding {ledger ledger' : Ledger} {id id' : String}
    (h : (ledger'.holding id').usage = (ledger.holding id).usage) :
    ledger'.usageOf id' = ledger.usageOf id := by
  have husage : ledger'.usage[id']? = ledger.usage[id]? := h
  rw [Ledger.usageOf, Ledger.usageOf, Std.ExtTreeMap.getD_eq_getD_getElem?, Std.ExtTreeMap.getD_eq_getD_getElem?, husage]

theorem usageOf_of_nothing {id : String} (h : (ledger.holding id).usage = none) : ledger.usageOf id = .none := by
  have husage : ledger.usage[id]? = none := h
  rw [Ledger.usageOf, Std.ExtTreeMap.getD_eq_getD_getElem?, husage]
  rfl

/-- The tiles of the tile set of an identifier go exactly when that tile set is doomed. -/
theorem sumOf_drop (hample : Ample relation) (h : Follows relation table rounded before ledger)
    (doomed : TileSet → Bool) (amount : Nat → Int) (id : String) :
    (ledger.Doomed doomed id →
      table.sumOf amount id (before.filter fun key _ => !doomed key.tileSet) = 0) ∧
    (¬ledger.Doomed doomed id →
      table.sumOf amount id (before.filter fun key _ => !doomed key.tileSet) = table.sumOf amount id before) := by
  unfold CoverageTable.sumOf
  rw [Table.weigh_filter]
  constructor
  · rintro ⟨set, hset, hdoomed⟩
    obtain ⟨rfl, hplain⟩ := h.sound.set_of hset
    refine Table.weigh_eq_zero fun key size hkey => ?_
    by_cases hid : key.tileSet.id = set.id
    · rw [((h.plain (Table.mem_iff_exists.mpr ⟨size, hkey⟩)).tileSet_eq_iff hplain).mp hid, hdoomed]
      rfl
    · simp only [hid, false_and, if_false, ite_self]
  · intro hstays
    refine Table.weigh_congr fun key size hkey => ?_
    by_cases hboth : key.tileSet.id = id ∧ table.covers key = true
    · have hset := h.registered hample (Table.mem_iff_exists.mpr ⟨size, hkey⟩) hboth.2
      rw [hboth.1] at hset
      have hspared : doomed key.tileSet = false :=
        Bool.eq_false_of_not_eq_true fun hdoomed => hstays ⟨_, hset, hdoomed⟩
      rw [hspared]
      rfl
    · rw [if_neg hboth, ite_self]

theorem heard_bulk (hample : Ample relation) (h : Follows relation table rounded before ledger)
    (htells : event.Tells before after) (hadmissible : event.Admissible table) (htile : event.tile? = none)
    (hrename : ∀ layer target, event ≠ .layerRenamed layer target) (now : Int) :
    Follows relation table rounded after (ledger.heard table rounded event now) := by
  have hkept := h.toKept.heard rounded htells hadmissible now
  rw [Ledger.heard_of_bulk htile hrename] at hkept ⊢
  rw [htells.of_bulk htile hrename] at hkept ⊢
  have hall : ∀ id, relation ((ledger.drop event.dooms).2.usageOf id).used.bytes
        (table.sumOf (fun size => rounded size) id (before.filter fun key _ => !event.dooms key.tileSet)) ∧
      relation ((ledger.drop event.dooms).2.usageOf id).tiles
        (table.sumOf (fun _ => 1) id (before.filter fun key _ => !event.dooms key.tileSet)) := by
    intro id
    by_cases hid : ledger.Doomed event.dooms id
    · have husage := congrArg Holding.usage (Ledger.holding_drop_of_doomed h.sound.keyed _ hid)
      rw [usageOf_of_nothing husage, (h.sumOf_drop hample _ _ id).1 hid, (h.sumOf_drop hample _ _ id).1 hid]
      exact ⟨hample.zero, hample.zero⟩
    · have husage := congrArg Holding.usage (Ledger.holding_drop_of_not_doomed h.sound.keyed _ hid)
      rw [usageOf_of_holding husage, (h.sumOf_drop hample _ _ id).2 hid, (h.sumOf_drop hample _ _ id).2 hid]
      exact ⟨h.used id, h.tiles id⟩
  exact ⟨hkept, fun id => (hall id).1, fun id => (hall id).2⟩

/-! ## Layers renamed -/

section Rename

variable {layer target : String} (hample : Ample relation) (h : Follows relation table rounded before ledger)
  (htells : (Event.layerRenamed layer target).Tells before after) (ht : PlainName target)
  (hcoverage : table.SameCoverage layer target) (hne : layer ≠ target)

include hcoverage in
/-- Whether a tile is covered does not change when its layer is moved to one with the same coverages. -/
theorem covers_moved (key : TileKey) : table.covers (key.moved layer target) = table.covers key := by
  unfold TileKey.moved
  split
  · rename_i hlayer
    subst hlayer
    exact hcoverage.covers_renamed
  · rfl

include hample h htells hcoverage

/-- All other tile sets have the tiles they had. -/
theorem sumOf_renamed_other {id : String} (hid : ∀ set : TileSet, ledger.tileSets[set.id]? = some set →
    set.layer = layer → id ≠ set.id ∧ id ≠ (set.renamed target).id) (amount : Nat → Int) :
    table.sumOf amount id after = table.sumOf amount id before := by
  unfold CoverageTable.sumOf
  rw [htells.weigh_moved]
  refine Table.weigh_congr fun key size hkey => ?_
  rw [covers_moved hcoverage]
  unfold TileKey.moved
  split
  · rename_i hkeyLayer
    by_cases hcovers : table.covers key = true
    · -- a covered tile has its tile set registered, and so it is none of these
      have hset := h.registered hample (Table.mem_iff_exists.mpr ⟨size, hkey⟩) hcovers
      obtain ⟨hsource, htarget⟩ := hid key.tileSet hset hkeyLayer
      rw [if_neg fun hboth => htarget hboth.1.symm, if_neg fun hboth => hsource hboth.1.symm]
    · rw [if_neg fun hboth => hcovers hboth.2, if_neg fun hboth => hcovers hboth.2]
  · rfl

include ht

omit hample in
/-- The tiles of the counterpart of a tile set of the layer are those that the tile set had. -/
theorem sumOf_renamed_target {set : TileSet} (hset : ledger.tileSets[set.id]? = some set) (hlayer : set.layer = layer)
    (amount : Nat → Int) :
    table.sumOf amount (set.renamed target).id after = table.sumOf amount set.id before := by
  have hplain : set.Plain := (h.sound.set_of hset).2
  unfold CoverageTable.sumOf
  rw [htells.weigh_moved]
  refine Table.weigh_congr fun key size hkey => ?_
  have hmem : key ∈ before := Table.mem_iff_exists.mpr ⟨size, hkey⟩
  have hkeyPlain := h.plain hmem
  rw [covers_moved hcoverage]
  have hiff : (key.moved layer target).tileSet.id = (set.renamed target).id ↔ key.tileSet.id = set.id := by
    unfold TileKey.moved
    split
    · rename_i hkeyLayer
      rw [TileKey.tileSet_renamed]
      constructor
      · intro heq
        exact congrArg TileSet.id (hkeyPlain.tileSet.eq_of_renamed_id hplain ht (hkeyLayer.trans hlayer.symm) heq)
      · intro heq
        rw [hkeyPlain.tileSet.eq_of_id hplain heq]
    · rename_i hkeyLayer
      constructor
      · intro heq
        have := congrArg TileSet.layer (hkeyPlain.tileSet.eq_of_id (hplain.renamed ht) heq)
        exact absurd this (htells.1 key hmem)
      · intro heq
        have := congrArg TileSet.layer (hkeyPlain.tileSet.eq_of_id hplain heq)
        exact absurd (this.trans hlayer) hkeyLayer
  simp only [hiff]

include hne

omit hample hcoverage in
/-- No tiles are left of a tile set of the layer. -/
theorem sumOf_renamed_source {set : TileSet} (hset : ledger.tileSets[set.id]? = some set) (hlayer : set.layer = layer)
    (amount : Nat → Int) : table.sumOf amount set.id after = 0 := by
  have hplain : set.Plain := (h.sound.set_of hset).2
  unfold CoverageTable.sumOf
  rw [htells.weigh_moved]
  refine Table.weigh_eq_zero fun key size hkey => if_neg ?_
  rintro ⟨hid, -⟩
  have hkeyPlain := h.plain (Table.mem_iff_exists.mpr ⟨size, hkey⟩)
  unfold TileKey.moved at hid
  split at hid
  · have := congrArg TileSet.layer ((hkeyPlain.renamed ht).tileSet.eq_of_id hplain hid)
    exact hne (hlayer.symm.trans this.symm)
  · rename_i hkeyLayer
    have := congrArg TileSet.layer (hkeyPlain.tileSet.eq_of_id hplain hid)
    exact hkeyLayer (this.trans hlayer)

omit hcoverage in
/-- The usage of a tile set that a tile set of the layer is moved to follows the tiles of the one moved. -/
theorem used_renamed_target {set : TileSet} (hset : ledger.tileSets[set.id]? = some set) (hlayer : set.layer = layer) :
    relation ((ledger.renameLayer layer target).usageOf (set.renamed target).id).used.bytes
        (table.sumOf (fun size => rounded size) set.id before) ∧
      relation ((ledger.renameLayer layer target).usageOf (set.renamed target).id).tiles
        (table.sumOf (fun _ => 1) set.id before) := by
  have hplain : set.Plain := (h.sound.set_of hset).2
  have hholding := congrArg Holding.usage (Ledger.holding_renameLayer_target h.sound ht hne hset hlayer)
  cases husage : ledger.usage[set.id]? with
  | some usage =>
    have hmoved : ((ledger.holding set.id).onto (set.renamed target) (ledger.holding (set.renamed target).id)).usage =
        (ledger.holding set.id).usage := by
      change (ledger.usage[set.id]?).or _ = ledger.usage[set.id]?
      rw [husage]
      rfl
    rw [usageOf_of_holding (hholding.trans hmoved)]
    exact ⟨h.used set.id, h.tiles set.id⟩
  | none =>
    -- nothing is moved, and the target had no tiles
    have hkept : ((ledger.holding set.id).onto (set.renamed target) (ledger.holding (set.renamed target).id)).usage =
        (ledger.holding (set.renamed target).id).usage := by
      change (ledger.usage[set.id]?).or _ = _
      rw [husage]
      rfl
    have hempty : ∀ amount, table.sumOf amount (set.renamed target).id before = 0 := fun amount =>
      CoverageTable.sumOf_eq_zero fun key hkey hid => by
        have := congrArg TileSet.layer ((h.plain hkey).tileSet.eq_of_id (hplain.renamed ht) hid)
        exact absurd this (htells.1 key hkey)
    have hsource := And.intro (h.used set.id) (h.tiles set.id)
    have htarget := And.intro (h.used (set.renamed target).id) (h.tiles (set.renamed target).id)
    rw [usageOf_of_nothing husage] at hsource
    rw [hempty, hempty] at htarget
    rw [usageOf_of_holding (hholding.trans hkept)]
    exact ⟨hample.trans htarget.1 hsource.1, hample.trans htarget.2 hsource.2⟩

theorem heard_rename (now : Int) :
    Follows relation table rounded after (ledger.heard table rounded (.layerRenamed layer target) now) := by
  have hkept := h.toKept.heard rounded htells ⟨ht, hcoverage⟩ now
  have hall : ∀ id, relation ((ledger.renameLayer layer target).usageOf id).used.bytes
        (table.sumOf (fun size => rounded size) id after) ∧
      relation ((ledger.renameLayer layer target).usageOf id).tiles (table.sumOf (fun _ => 1) id after) := by
    intro id
    by_cases htarget : ∃ set : TileSet, ledger.tileSets[set.id]? = some set ∧ set.layer = layer ∧ id = (set.renamed target).id
    · obtain ⟨set, hset, hlayer, rfl⟩ := htarget
      rw [sumOf_renamed_target h htells ht hcoverage hset hlayer, sumOf_renamed_target h htells ht hcoverage hset hlayer]
      exact used_renamed_target hample h htells ht hne hset hlayer
    · by_cases hsource : ∃ set : TileSet, ledger.tileSets[set.id]? = some set ∧ set.layer = layer ∧ id = set.id
      · obtain ⟨set, hset, hlayer, rfl⟩ := hsource
        rw [usageOf_of_nothing (by rw [Ledger.holding_renameLayer_source h.sound ht hne hset hlayer]; rfl),
          sumOf_renamed_source h htells ht hne hset hlayer,
          sumOf_renamed_source h htells ht hne hset hlayer]
        exact ⟨hample.zero, hample.zero⟩
      · have hid : ∀ set : TileSet, ledger.tileSets[set.id]? = some set → set.layer = layer →
            id ≠ set.id ∧ id ≠ (set.renamed target).id := fun set hset hlayer =>
          ⟨fun heq => hsource ⟨set, hset, hlayer, heq⟩, fun heq => htarget ⟨set, hset, hlayer, heq⟩⟩
        rw [usageOf_of_holding (congrArg Holding.usage (Ledger.holding_renameLayer_other h.sound ht hne _ hid)),
          sumOf_renamed_other hample h htells hcoverage hid, sumOf_renamed_other hample h htells hcoverage hid]
        exact ⟨h.used _, h.tiles _⟩
  exact ⟨hkept, fun id => (hall id).1, fun id => (hall id).2⟩

end Rename

/-- A layer without tiles renamed to itself. -/
theorem heard_rename_self (h : Follows relation table rounded before ledger) {layer : String}
    (htells : (Event.layerRenamed layer layer).Tells before after) (now : Int) :
    Follows relation table rounded after (ledger.heard table rounded (.layerRenamed layer layer) now) := by
  change Follows relation table rounded after (ledger.renameLayer layer layer)
  rw [htells.eq_of_self, Ledger.renameLayer_self h.sound]
  exact h

/-- Usage follows the tiles through every event. -/
theorem heard (hample : Ample relation) (h : Follows relation table rounded before ledger) (htells : event.Tells before after)
    (hadmissible : event.Admissible table) (now : Int) :
    Follows relation table rounded after (ledger.heard table rounded event now) := by
  rcases event.kinds with ⟨tile, htile⟩ | ⟨layer, target, rfl⟩ | ⟨htile, hrename⟩
  · exact h.heard_tile hample htells hadmissible htile now
  · by_cases hsame : layer = target
    · subst hsame
      exact h.heard_rename_self htells now
    · exact heard_rename hample h htells hadmissible.1 hadmissible.2 hsame now
  · exact h.heard_bulk hample htells hadmissible htile hrename now

/-- Usage that follows the tiles is upheld: neither hits nor emptied pages change it. -/
theorem upheld (hample : Ample relation) (table : CoverageTable) (rounded : Nat → Nat) :
    Upheld table rounded (Follows relation table rounded) where
  kept h := h.toKept
  heard h htells hadmissible now := h.heard hample htells hadmissible now
  hits h hkey _ hits now := ⟨⟨h.plain, h.sound.addHits hkey.tileSet rfl hits now⟩, h.used, h.tiles⟩
  truncated h hset hpage _ now := ⟨⟨h.plain, h.sound.setTruncated hset hpage now⟩, h.used, h.tiles⟩

end Follows

namespace Tallied

variable {table : CoverageTable} {rounded : Nat → Nat} {before after sizes : Sizes} {ledger : Ledger} {event : Event}

theorem follows_iff : Follows Eq table rounded sizes ledger ↔ Tallied table rounded sizes ledger :=
  ⟨fun h => ⟨h.toKept, h.used, h.tiles⟩, fun h => ⟨h.toKept, h.used, h.tiles⟩⟩

theorem registered (h : Tallied table rounded sizes ledger) {key : TileKey} (hkey : key ∈ sizes)
    (hcovers : table.covers key = true) : ledger.tileSets[key.tileSet.id]? = some key.tileSet :=
  (follows_iff.mpr h).registered ample_eq hkey hcovers

theorem empty (table : CoverageTable) (rounded : Nat → Nat) : Tallied table rounded ∅ .empty :=
  follows_iff.mp (.empty ample_eq table rounded)

theorem growth_nonneg (h : Tallied table rounded before ledger) (htells : event.Tells before after) {tile : TileKey}
    (htile : event.tile? = some tile) (hcovers : table.covers tile = true) :
    0 ≤ (ledger.usageOf tile.tileSet.id).used.bytes + event.growth (fun size => rounded size) ∧
      0 ≤ (ledger.usageOf tile.tileSet.id).tiles + event.growth fun _ => 1 :=
  (follows_iff.mpr h).growth_nonneg ample_eq htells htile hcovers

theorem upheld (table : CoverageTable) (rounded : Nat → Nat) : Upheld table rounded (Tallied table rounded) := by
  have hfollows : Follows Eq table rounded = Tallied table rounded :=
    funext fun _ => funext fun _ => propext follows_iff
  exact hfollows ▸ Follows.upheld ample_eq table rounded

end Tallied

/-! ## Layers -/

namespace CoverageTable

/-- The sum of an amount over the covered tiles of a layer. -/
def sumOfLayer (table : CoverageTable) (amount : Nat → Int) (layer : String) (sizes : Sizes) : Int :=
  Table.weigh sizes fun key size => if key.layer = layer ∧ table.covers key = true then amount size else 0

/-- The sums of some tile sets together are a sum over the tiles of all of them. -/
theorem sum_sumOf (table : CoverageTable) (amount : Nat → Int) (sizes : Sizes) : ∀ ids : List String, ids.Nodup →
    (ids.map fun id => table.sumOf amount id sizes).sum =
      Table.weigh sizes fun key size => if key.tileSet.id ∈ ids ∧ table.covers key = true then amount size else 0 := by
  intro ids hnodup
  simp only [sumOf, ite_and]
  exact Table.sum_weigh_of_kind sizes (fun key _ => key.tileSet.id)
    (fun key size => if table.covers key = true then amount size else 0) ids hnodup

end CoverageTable

/-- What a layer uses is the sum over its covered tiles. -/
theorem Tallied.usedByLayer {table : CoverageTable} {rounded : Nat → Nat} {sizes : Sizes} {ledger : Ledger}
    (h : Tallied table rounded sizes ledger) (layer : String) :
    (ledger.usedByLayer layer).bytes = table.sumOfLayer (fun size => rounded size) layer sizes := by
  have hsum := table.sum_sumOf (fun size => rounded size) sizes _ (h.sound.keyed.nodup_idsOf layer)
  rw [List.map_map] at hsum
  rw [Ledger.bytes_usedByLayer, List.map_congr_left fun set _ => h.used set.id, CoverageTable.sumOfLayer]
  refine hsum.trans (Table.weigh_congr fun key size hsize => ?_)
  have hkey : key ∈ sizes := Table.mem_iff_exists.mpr ⟨size, hsize⟩
  by_cases hcovers : table.covers key = true
  · have hregistered := h.registered hkey hcovers
    have hiff : key.tileSet.id ∈ (ledger.tileSetsOf layer).map TileSet.id ↔ key.layer = layer := by
      constructor
      · intro hid
        obtain ⟨set, hmem, heq⟩ := List.mem_map.mp hid
        obtain ⟨hset, rfl⟩ := (Ledger.mem_tileSetsOf h.sound).mp hmem
        rw [heq, hregistered] at hset
        exact congrArg TileSet.layer (Option.some.inj hset)
      · intro hlayer
        exact List.mem_map.mpr ⟨key.tileSet, (Ledger.mem_tileSetsOf h.sound).mpr ⟨hregistered, hlayer⟩, rfl⟩
    rw [if_congr (and_congr_left' hiff) rfl rfl]
  · rw [if_neg fun hboth => hcovers hboth.2, if_neg fun hboth => hcovers hboth.2]

end TileDepot
