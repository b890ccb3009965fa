import TileDepot.Eviction.Policy
import TileDepot.Number.Word
import TileDepot.Page.Books
import TileDepot.Store.Locks

/-!
# Sweeps

A sweep empties pages in the order of a policy until the space it has freed, by its own estimate, covers a deficit. The
candidates are the pages that may hold tiles: those with a fill above zero, and those nobody has recorded anything of, which
count as unused since the beginning of time. Where no pyramid can be drawn the recorded pages alone are candidates. A page
that cannot be locked or emptied is passed over. The estimates are added up in a word of 128 bits.
-/

namespace TileDepot

/-- What a sweep has done. -/
structure Swept where
  pages : Nat
  /-- The estimate of what was freed. -/
  freed : ByteSize
deriving Repr, DecidableEq, Inhabited

namespace Swept

/-- Nothing was done. -/
def nothing : Swept := ⟨0, .zero⟩

/-- So many pages and bytes more. -/
def add (swept : Swept) (pages : Nat) (bytes : Int) : Swept :=
  ⟨swept.pages + pages, .ofBytes (Word.wrap 128 (swept.freed.bytes + bytes))⟩

/-- One more page was emptied. -/
def addPage (swept : Swept) (bytes : Int) : Swept := swept.add 1 bytes

/-- What two sweeps have done. -/
def merge (swept other : Swept) : Swept := swept.add other.pages other.freed.bytes

end Swept

/-- What a sweep works with. -/
structure Sweeper (σ : Type) where
  books : Cell σ Books
  /-- The current minute. -/
  now : σ → Int
  /-- Deletes the tiles of a range. -/
  truncate : TileRange → Run σ Bool
  locks : Locks σ
  /-- Whether the sweep has been cancelled. -/
  cancelled : σ → Bool

namespace Sweeper

variable {σ : Type}

/-- The candidate for a page of the pyramid: what the ledger has of it, unless it is known to be empty. -/
def candidate? (ledger : Ledger) (page : Page) : Option PageEntry :=
  match ledger.pages[page.key]? with
  | none => some ⟨page, .fresh 0⟩
  | some entry => if entry.stats.isEmpty then none else some entry

/-- The pages of a tile set that may hold tiles. -/
def candidatesOf (set : TileSet) : Run Books (List PageEntry) := do
  let ledger ← Books.ledgerCell.get
  match ← Run.attempt (Books.atlasCell.run (Atlas.pagesOf set 0)) with
  | .ok pages => return pages.filterMap (candidate? ledger)
  | .error _ => return (ledger.pagesOf set.id).filter fun entry => !entry.stats.isEmpty

/-- The pages of some tile sets that may hold tiles. -/
def candidates : List TileSet → Run Books (List PageEntry)
  | [] => return []
  | set :: sets => do
    let entries ← candidatesOf set
    let more ← candidates sets
    return entries ++ more

/-- The bytes that go with a page by estimate: its part of a full page of tiles of average size, rounded up. -/
def estimate (stats : PageStats) (slots : Nat) (average : Float) : Int :=
  (Binary64.ofFloat (stats.fillFactor * Float.ofNat slots * average)).toInt .up Binary64.minInt128 Binary64.maxInt128

/-- A page emptied, and the estimate of what was freed. The estimate is made before the tiles are deleted. -/
def truncatePage (sweeper : Sweeper σ) (set : TileSet) (entry : PageEntry) : Run σ Int := do
  let area ← sweeper.books.run (Books.atlasCell.run (Atlas.areaOf set entry.page))
  let slots ← sweeper.books.run (Books.atlasCell.run (Atlas.tilesPerPage set entry.page.zoom))
  let books ← sweeper.books.get
  let freed := estimate entry.stats slots (books.averageTileSize set.id)
  let _ ← sweeper.truncate (.ofPage set area)
  let now ← Run.look sweeper.now
  sweeper.books.run (Books.ledgerCell.change fun ledger => ledger.setTruncated set entry.page now)
  return freed

/-- The name of the lock of a page. -/
def lockName (key : PageKey) : String := s!"page:{key.text}"

/-- A page emptied under its lock, or nothing when it is passed over. -/
def tryPage (sweeper : Sweeper σ) (set : TileSet) (entry : PageEntry) : Run σ (Option Int) := do
  let name := lockName entry.page.key
  match ← Run.attempt (sweeper.locks.acquire name) with
  | .error _ => return none
  | .ok _ =>
    let freed ← Run.attempt (sweeper.truncatePage set entry)
    Run.ignoringFailure (sweeper.locks.release name)
    return freed.toOption

/-- Candidates emptied in turn until the deficit is covered. A page that has been tried is not tried again. -/
def sweepFrom (sweeper : Sweeper σ) (sets : Std.ExtTreeMap String TileSet) (deficit : ByteSize) :
    List PageEntry → Std.ExtTreeMap PageKey Unit → Swept → Run σ Swept
  | [], _, swept => return swept
  | entry :: rest, tried, swept => do
    if ← Run.look sweeper.cancelled then throw (.cancelled s!"sweep interrupted after {swept.pages} pages")
    if deficit.bytes ≤ swept.freed.bytes then return swept
    else if tried.contains entry.page.key then sweeper.sweepFrom sets deficit rest tried swept
    else
      let tried := tried.insert entry.page.key ()
      match sets[entry.page.key.tileSet]? with
      | none => sweeper.sweepFrom sets deficit rest tried swept
      | some set =>
        match ← sweeper.tryPage set entry with
        | none => sweeper.sweepFrom sets deficit rest tried swept
        | some freed => sweeper.sweepFrom sets deficit rest tried (swept.addPage freed)

/-- A sweep over some tile sets. Of two tile sets with one identifier the last counts. -/
def sweep (sweeper : Sweeper σ) (sets : List TileSet) (policy : Policy) (deficit : ByteSize) : Run σ Swept := do
  let entries ← sweeper.books.run (candidates sets)
  let byId := Std.ExtTreeMap.ofList (sets.map fun set => (set.id, set))
  sweeper.sweepFrom byId deficit (policy.sort entries) ∅ .nothing

end Sweeper

end TileDepot
