import TileDepot.Proofs.Depot.Swept

/-!
# Usage is exact

In a depot that starts empty with its accountant listening, the recorded usage of every tile set is the sum over the covered
tiles that are stored, at any time and after any requests but those that clear the store. Because this is so after every
event, the cut at zero never cuts anything off: the depot is the same without it. Nor does it matter that words hold the sums,
as long as they have room for what is stored.
-/

namespace TileDepot

namespace Depot

variable {table : CoverageTable}

/-- Where usage is tallied, it makes no difference whether it is cut at zero. -/
theorem blind_tally (accountant : Accountant) :
    (Upkeep.ofUpheld accountant (Tallied.upheld table accountant.rounded)).Blind Usage.tally := by
  intro before after ledger event tile hholds htells htile hcovers
  obtain ⟨hbytes, htiles⟩ := Tallied.growth_nonneg hholds htells htile hcovers
  exact (Usage.record_eq_tally hbytes htiles).symm

/-- Where usage is tallied, words record an event just as it is recorded here, as long as they have room for the tiles that are
stored after it. -/
theorem hear_in_words (accountant : Accountant) {books : Books} {event : Event} {before after : Sizes}
    (hatlas : books.atlas.Faithful table) (htallied : Tallied table accountant.rounded before books.ledger)
    (htells : event.Tells before after) (hbytes : ∀ id, table.sumOf (fun size => accountant.rounded size) id after < 2 ^ 127)
    (htiles : ∀ id, table.sumOf (fun _ => 1) id after < 2 ^ 63) (now : Int) :
    accountant.hearBy Usage.recordInWords event now books = accountant.hear event now books := by
  refine accountant.hearBy_eq books hatlas (fun tile htile hcovers => ?_) now
  obtain ⟨hused, hcounted⟩ := htallied.growth_nonneg htells htile hcovers
  have hroom := hbytes tile.tileSet.id
  have hroom' := htiles tile.tileSet.id
  rw [CoverageTable.sumOf_tells htells htile, if_pos ⟨rfl, hcovers⟩] at hroom hroom'
  rw [← htallied.used] at hroom
  rw [← htallied.tiles] at hroom'
  have hhalf : Word.half 128 = 2 ^ 127 := by decide
  have hhalf' : Word.half 64 = 2 ^ 63 := by decide
  refine Usage.recordInWords_of_fits ?_ ?_
  · rw [Word.Fits, hhalf]
    omega
  · rw [Word.Fits, hhalf']
    omega

/-- After any requests, in a depot that started empty with its accountant listening:
1. The usage of every tile set is exactly that of the covered tiles stored, with their sizes rounded.
2. What a layer uses is exactly the sum over its covered tiles.
3. The depot is the one in which usage is never cut at zero. -/
theorem usage_exact (name : String) (clock : Clock) (accountant : Accountant) (requests : List Request)
    (hrequests : ∀ request ∈ requests, request.Admissible table ∧ request ≠ .call .clear) :
    let depot := (start name clock table accountant).serve name requests
    (∀ set : TileSet, set.Plain →
      (depot.ledger.usageOf set.id).used.bytes =
        ((table.tilesOf (·.tileSet = set) (depot.store name)).map fun entry => (accountant.rounded entry.2.size : Int)).sum ∧
      (depot.ledger.usageOf set.id).tiles = (table.tilesOf (·.tileSet = set) (depot.store name)).length) ∧
    (∀ layer : String, (depot.ledger.usedByLayer layer).bytes =
      ((table.tilesOf (·.layer = layer) (depot.store name)).map fun entry => (accountant.rounded entry.2.size : Int)).sum) ∧
    (start name clock table accountant).serveBy Usage.tally name requests = depot := by
  intro depot
  have hstart := upToDate_start (Upkeep.ofUpheld accountant (Tallied.upheld table accountant.rounded)) name clock
    rfl (Tallied.empty table accountant.rounded)
  obtain ⟨hblind, hafter⟩ := hstart.serve (blind_tally accountant) requests (fun request hmem => (hrequests request hmem).1)
    fun hclear => absurd rfl (hrequests _ hclear).2
  have htallied : Tallied table accountant.rounded (depot.store name).sizes depot.ledger := hafter.holds
  have hsets : ∀ {set : TileSet}, set.Plain → ∀ amount : Nat → Int,
      table.sumOf amount set.id (depot.store name).sizes =
        ((table.tilesOf (·.tileSet = set) (depot.store name)).map fun entry => amount entry.2.size).sum := by
    intro set hset amount
    rw [CoverageTable.sum_tilesOf]
    refine Table.weigh_congr fun key size hkey => ?_
    have hplain := htallied.plain (Table.mem_iff_exists.mpr ⟨size, hkey⟩)
    rw [if_congr (and_congr_left' (hplain.tileSet_eq_iff hset)) rfl rfl]
  refine ⟨fun set hset => ⟨?_, ?_⟩, fun layer => ?_, hblind⟩
  · rw [htallied.used, hsets hset]
  · rw [htallied.tiles, hsets hset]
    simp
  · rw [htallied.usedByLayer]
    exact (CoverageTable.sum_tilesOf (·.layer = layer) (fun size => accountant.rounded size) _).symm

/-- Two tiles are put, their layer is renamed, and one of them is deleted: one block is in use. -/
theorem usage_exact_after_rename :
    let set := TileSet.of "streets" "world" "png" none
    let depot := (start "tiles" (.atMinutes 5) Sample.table (Sample.accountant "roads" 100)).serve "tiles"
      [.call (.put (Sample.tile "roads" 1 2 5)), .call (.put (Sample.tile "roads" 4 2 5)),
        .call (.rename "roads" "streets"), .call (.deleteRange (.ofPage set ⟨4, 2, 4, 2, 3⟩))]
    (depot.ledger.usageOf set.id).used.bytes = ((Sample.table.tilesOf (·.tileSet = set) (depot.store "tiles")).map
        fun entry => ((Sample.accountant "roads" 100).rounded entry.2.size : Int)).sum ∧
      (depot.ledger.usageOf set.id).used.bytes = 4096 := by
  refine ⟨((usage_exact "tiles" _ (Sample.accountant "roads" 100) _ fun request hrequest => ?_).1 _
    ⟨rfl, by decide, by decide, by decide⟩).1, by decide +kernel⟩
  simp only [List.mem_cons, List.not_mem_nil, or_false] at hrequest
  rcases hrequest with rfl | rfl | rfl | rfl
  · exact ⟨⟨by decide, by decide, by decide⟩, fun h => by cases h⟩
  · exact ⟨⟨by decide, by decide, by decide⟩, fun h => by cases h⟩
  · exact ⟨⟨by decide, Sample.sameCoverage⟩, fun h => by cases h⟩
  · exact ⟨trivial, fun h => by cases h⟩

end Depot

end TileDepot
