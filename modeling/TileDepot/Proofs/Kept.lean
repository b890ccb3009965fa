import TileDepot.Proofs.Books

/-!
# Invariants of a store and its ledger

An invariant relates the sizes of the tiles in a store to the ledger that an accountant keeps of them. It is upheld when it
outlives every event that the accountant hears of, every hit, and every page that is recorded as empty when no tile is left
on it. The least such invariant that the others build on is `Kept`: plain names and a sound ledger.
-/

namespace TileDepot

/-- An event that an accountant may hear of: tiles have plain names, and a layer is renamed to one with the same coverages. -/
def Event.Admissible (table : CoverageTable) : Event → Prop
  | stored tile _ | updated tile _ _ => tile.Plain
  | layerRenamed layer target => PlainName target ∧ table.SameCoverage layer target
  | _ => True

/-- Plain names in a store, and a sound ledger. -/
structure Kept (sizes : Sizes) (ledger : Ledger) : Prop where
  plain : ∀ {key : TileKey}, key ∈ sizes → key.Plain
  sound : ledger.Sound

/-- An invariant of a store and its ledger that outlives events, hits and emptied pages. -/
structure Upheld (table : CoverageTable) (rounded : Nat → Nat) (invariant : Sizes → Ledger → Prop) : Prop where
  kept : ∀ {sizes ledger}, invariant sizes ledger → Kept sizes ledger
  heard : ∀ {before after ledger event}, invariant before ledger → event.Tells before after → event.Admissible table →
    ∀ now, invariant after (ledger.heard table rounded event now)
  hits : ∀ {sizes ledger} {key : TileKey} {level : Level}, invariant sizes ledger → key.Plain →
    table.levelOf? key = some level → ∀ hits now,
      invariant sizes (ledger.addHits key.tileSet (key.pageAt level now) hits now).2
  truncated : ∀ {sizes ledger} {set : TileSet} {page : Page}, invariant sizes ledger → set.Plain → page.tileSet = set.id →
    (table.Fits → table.countOn page.key sizes = 0) → ∀ now, invariant sizes (ledger.setTruncated set page now)

/-- Two invariants upheld together. -/
theorem Upheld.and {table : CoverageTable} {rounded : Nat → Nat} {first second : Sizes → Ledger → Prop}
    (h : Upheld table rounded first) (h' : Upheld table rounded second) :
    Upheld table rounded fun sizes ledger => first sizes ledger ∧ second sizes ledger where
  kept hboth := h.kept hboth.1
  heard hboth htells hadmissible now :=
    ⟨h.heard hboth.1 htells hadmissible now, h'.heard hboth.2 htells hadmissible now⟩
  hits hboth hkey hlevel hits now := ⟨h.hits hboth.1 hkey hlevel hits now, h'.hits hboth.2 hkey hlevel hits now⟩
  truncated hboth hset hpage hcount now :=
    ⟨h.truncated hboth.1 hset hpage hcount now, h'.truncated hboth.2 hset hpage hcount now⟩

namespace Ledger

variable {table : CoverageTable} {rounded : Nat → Nat} {event : Event} {ledger : Ledger} {now : Int}

/-- An event about a tile is recorded by what grows with it. -/
theorem heard_of_tile {tile : TileKey} (htile : event.tile? = some tile) :
    ledger.heard table rounded event now =
      ledger.recorded table tile (event.growth fun _ => 1) (event.growth fun size => rounded size) now := by
  cases event with
  | stored | updated | deleted =>
    obtain rfl := Option.some.inj htile
    rfl
  | layerDeleted | layerRenamed | gridsetDeleted | parametersDeleted => cases htile

/-- An event about all the tiles of some tile sets drops these tile sets. -/
theorem heard_of_bulk (htile : event.tile? = none) (hrename : ∀ layer target, event ≠ .layerRenamed layer target) :
    ledger.heard table rounded event now = (ledger.drop event.dooms).2 := by
  cases event with
  | stored | updated | deleted => cases htile
  | layerRenamed layer target => exact absurd rfl (hrename layer target)
  | layerDeleted | gridsetDeleted | parametersDeleted => rfl

/-- A sound ledger is sound after a tile was recorded. -/
theorem Sound.recorded (h : ledger.Sound) {key : TileKey} (hkey : key.Plain) (tiles bytes now : Int) :
    (ledger.recorded table key tiles bytes now).Sound := by
  unfold Ledger.recorded
  split
  · exact h
  · exact h.addTilesBy _ hkey.tileSet rfl _ _ _ _

end Ledger

namespace Event

variable {event : Event} {before after : Sizes}

/-- An event about many tiles, but for a renaming, tells that they are gone. -/
theorem Tells.of_bulk (h : event.Tells before after) (htile : event.tile? = none)
    (hrename : ∀ layer target, event ≠ .layerRenamed layer target) :
    after = before.filter fun key _ => !event.dooms key.tileSet := by
  cases event with
  | stored | updated | deleted => cases htile
  | layerRenamed layer target => exact absurd rfl (hrename layer target)
  | layerDeleted | gridsetDeleted | parametersDeleted => exact h

/-- The three kinds of events: about one tile, about the name of a layer, or about all the tiles of some tile sets. -/
theorem kinds (event : Event) : (∃ tile, event.tile? = some tile) ∨ (∃ layer target, event = .layerRenamed layer target) ∨
    (event.tile? = none ∧ ∀ layer target, event ≠ .layerRenamed layer target) := by
  cases event with
  | stored tile | updated tile | deleted tile => exact Or.inl ⟨tile, rfl⟩
  | layerRenamed layer target => exact Or.inr (Or.inl ⟨layer, target, rfl⟩)
  | layerDeleted | gridsetDeleted | parametersDeleted => exact Or.inr (Or.inr ⟨rfl, fun _ _ h => by cases h⟩)

end Event

namespace Kept

variable {table : CoverageTable} {rounded : Nat → Nat} {before after : Sizes} {ledger : Ledger} {event : Event}

/-- The tile of an event has plain names. -/
theorem plain_of_tile (h : Kept before ledger) (htells : event.Tells before after) (hadmissible : event.Admissible table)
    {tile : TileKey} (htile : event.tile? = some tile) : tile.Plain := by
  cases event with
  | stored | updated =>
    obtain rfl := Option.some.inj htile
    exact hadmissible
  | deleted =>
    obtain rfl := Option.some.inj htile
    exact h.plain (Table.mem_iff_exists.mpr ⟨_, htells.1⟩)
  | layerDeleted | layerRenamed | gridsetDeleted | parametersDeleted => cases htile

/-- The tiles after an event have plain names. -/
theorem plain_after (h : Kept before ledger) (htells : event.Tells before after) (hadmissible : event.Admissible table)
    {key : TileKey} (hkey : key ∈ after) : key.Plain := by
  obtain ⟨size, hsize⟩ := Table.mem_iff_exists.mp hkey
  rcases event.kinds with ⟨tile, htile⟩ | ⟨layer, target, rfl⟩ | ⟨htile, hrename⟩
  · have hplain := h.plain_of_tile htells hadmissible htile
    by_cases heq : tile = key
    · exact heq ▸ hplain
    · refine h.plain (Table.mem_iff_exists.mpr ⟨size, ?_⟩)
      cases event with
      | stored | updated =>
        obtain rfl := Option.some.inj htile
        rwa [htells.2, Table.getElem?_insert, if_neg heq] at hsize
      | deleted =>
        obtain rfl := Option.some.inj htile
        rwa [htells.2, Table.getElem?_erase, if_neg heq] at hsize
      | layerDeleted | layerRenamed | gridsetDeleted | parametersDeleted => cases htile
  · obtain ⟨origin, horigin, rfl⟩ := (htells.2 key size).mp hsize
    have hplain := h.plain (Table.mem_iff_exists.mpr ⟨size, horigin⟩)
    unfold TileKey.moved
    split
    · exact hplain.renamed hadmissible.1
    · exact hplain
  · rw [htells.of_bulk htile hrename, Std.ExtTreeMap.getElem?_filter', Option.filter_eq_some_iff] at hsize
    exact h.plain (Table.mem_iff_exists.mpr ⟨size, hsize.1⟩)

/-- A sound ledger is sound after an event. -/
theorem sound_heard (h : Kept before ledger) (htells : event.Tells before after) (hadmissible : event.Admissible table)
    (now : Int) : (ledger.heard table rounded event now).Sound := by
  rcases event.kinds with ⟨tile, htile⟩ | ⟨layer, target, rfl⟩ | ⟨htile, hrename⟩
  · rw [Ledger.heard_of_tile htile]
    exact h.sound.recorded (h.plain_of_tile htells hadmissible htile) _ _ _
  · by_cases hsame : layer = target
    · subst hsame
      change (ledger.renameLayer layer layer).Sound
      rw [Ledger.renameLayer_self h.sound]
      exact h.sound
    · exact Ledger.sound_renameLayer h.sound hadmissible.1 hsame
  · rw [Ledger.heard_of_bulk htile hrename]
    exact Ledger.sound_drop h.sound _

/-- Names stay plain and the ledger sound after an event. -/
theorem heard (rounded : Nat → Nat) (h : Kept before ledger) (htells : event.Tells before after) (hadmissible : event.Admissible table)
    (now : Int) : Kept after (ledger.heard table rounded event now) :=
  ⟨h.plain_after htells hadmissible, h.sound_heard htells hadmissible now⟩

end Kept

end TileDepot
