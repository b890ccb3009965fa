import TileDepot.Eviction.Accountant
import TileDepot.Proofs.Atlas
import TileDepot.Proofs.Events
import TileDepot.Proofs.Ledger

/-!
# What an accountant makes of events

With a faithful atlas, what an accountant writes into its ledger on hearing of an event is a function of the coverage table,
of the event and of the ledger alone: `Ledger.heard`.
-/

namespace TileDepot

namespace Ledger

/-- The ledger after tiles and bytes have been recorded on the page of a tile; a tile that is not covered changes nothing. -/
def recorded (table : CoverageTable) (key : TileKey) (tiles bytes now : Int) (ledger : Ledger) : Ledger :=
  match table.levelOf? key with
  | none => ledger
  | some level => (ledger.addTilesBy Usage.record key.tileSet (key.pageAt level now) tiles level.tilesPerPage bytes now).2

/-- The ledger after an event, where a payload counts with its size rounded. -/
def heard (table : CoverageTable) (rounded : Nat → Nat) (event : Event) (now : Int) (ledger : Ledger) : Ledger :=
  match event with
  | .stored tile size => ledger.recorded table tile 1 (rounded size) now
  | .deleted tile size => ledger.recorded table tile (-1) (-(rounded size : Int)) now
  | .updated tile size oldSize => ledger.recorded table tile 0 ((rounded size : Int) - rounded oldSize) now
  | .layerRenamed layer target => ledger.renameLayer layer target
  | event => (ledger.drop event.dooms).2

end Ledger

variable {table : CoverageTable} {books : Books}

namespace Books

/-- A question to the atlas leaves the ledger as it is, and its answer is known. -/
theorem onState_atlasCell {α : Type} (books : Books) {run : Run Atlas α} {answer : Except Error α}
    (h : books.atlas.Faithful table) (hrun : Atlas.Answers table run answer) :
    ∃ atlas : Atlas, atlas.Faithful table ∧ (atlasCell.run run).onState books = (answer, { books with atlas }) := by
  obtain ⟨hanswer, hfaithful⟩ := hrun books.atlas h
  exact ⟨(run.onState books.atlas).2, hfaithful, by rw [Run.onState_cell, ← hanswer]; rfl⟩

/-- Tiles recorded: the page and its slots are those of the table. -/
theorem recordTiles_onState (books : Books) (h : books.atlas.Faithful table) (key : TileKey) (tiles bytes now : Int) :
    ∃ atlas : Atlas, atlas.Faithful table ∧
      ((recordTiles key tiles bytes now).onState books).2 = ⟨atlas, books.ledger.recorded table key tiles bytes now⟩ := by
  unfold recordTiles Ledger.recorded
  cases hlevel : table.levelOf? key with
  | none =>
    obtain ⟨error, hanswer⟩ := Atlas.answers_pageOf_of_none hlevel now
    obtain ⟨atlas, hatlas, hpage⟩ := onState_atlasCell books h hanswer
    refine ⟨atlas, hatlas, ?_⟩
    rw [Run.onState_bind_error hpage]
  | some level =>
    obtain ⟨atlas, hatlas, hpage⟩ := onState_atlasCell books h (Atlas.answers_pageOf_of_some hlevel now)
    obtain ⟨atlas', hatlas', hslots⟩ := onState_atlasCell { books with atlas } hatlas
      (Atlas.answers_tilesPerPage_of_some hlevel)
    refine ⟨atlas', hatlas', ?_⟩
    rw [Run.onState_bind_ok hpage]
    refine (congrArg Prod.snd (Run.onState_bind_ok hslots)).trans ?_
    rfl

/-- Hits recorded on the page of a tile; a tile that is not covered has none. -/
theorem recordHits_onState (books : Books) (h : books.atlas.Faithful table) (key : TileKey) (hits : Nat) (now : Int) :
    ∃ atlas : Atlas, atlas.Faithful table ∧
      ((recordHits key.tileSet key.x key.y key.z hits now).onState books).2 = ⟨atlas, match table.levelOf? key with
        | none => books.ledger
        | some level => (books.ledger.addHits key.tileSet (key.pageAt level now) hits now).2⟩ := by
  unfold recordHits
  cases hlevel : table.levelOf? key with
  | none =>
    obtain ⟨error, hanswer⟩ := Atlas.answers_pageOf_of_none hlevel now
    obtain ⟨atlas, hatlas, hpage⟩ := onState_atlasCell books h hanswer
    refine ⟨atlas, hatlas, ?_⟩
    rw [Run.onState_bind_error hpage]
  | some level =>
    obtain ⟨atlas, hatlas, hpage⟩ := onState_atlasCell books h (Atlas.answers_pageOf_of_some hlevel now)
    refine ⟨atlas, hatlas, ?_⟩
    rw [Run.onState_bind_ok hpage]
    rfl

end Books

namespace Accountant

/-- What an accountant makes of an event: its ledger hears of it, its atlas stays faithful, its settings stay. -/
theorem hear_books (accountant : Accountant) (books : Books) (h : books.atlas.Faithful table) (event : Event) (now : Int) :
    ∃ atlas : Atlas, atlas.Faithful table ∧
      (accountant.hear event now books).2 = ⟨atlas, books.ledger.heard table accountant.rounded event now⟩ := by
  cases event with
  | stored tile size => exact books.recordTiles_onState h tile _ _ now
  | updated tile size oldSize => exact books.recordTiles_onState h tile _ _ now
  | deleted tile size => exact books.recordTiles_onState h tile _ _ now
  | layerDeleted layer => exact ⟨_, h.forget layer, rfl⟩
  | layerRenamed layer target => exact ⟨_, h.forget layer, rfl⟩
  | gridsetDeleted layer gridset => exact ⟨_, h, rfl⟩
  | parametersDeleted layer parameters => exact ⟨_, h, rfl⟩

/-- Whatever an accountant hears, its settings stay what they are. -/
theorem hear_settings (accountant : Accountant) (event : Event) (now : Int) (books : Books) :
    (accountant.hear event now books).1.settings = accountant.settings := by
  cases event <;> rfl

end Accountant

end TileDepot
