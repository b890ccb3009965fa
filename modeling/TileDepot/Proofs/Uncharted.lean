import TileDepot.Proofs.Depot.Enforcement
import TileDepot.Proofs.Trials

/-!
# Tile sets without a pyramid

Where no pyramid can be drawn of a tile set, a sweep goes by the pages that are recorded of it. But what is to be deleted for a
page is a rectangle of the pyramid. So these pages are found, and passed over one after the other: nothing is deleted, and a
layer that is no longer published keeps all that it uses, whatever its quota is.
-/

namespace TileDepot

namespace Atlas

/-- No pyramid is drawn of a tile set, and none can be drawn: its layer is not published in its gridset, or what is published
there makes no pyramid. -/
structure Uncharted (atlas : Atlas) (set : TileSet) : Prop where
  undrawn : atlas.drawn? set.layer set.gridset = none
  fails : ∃ error : Error, atlas.draw set.layer set.gridset = .error error

variable {atlas : Atlas} {set : TileSet}

/-- A tile set is uncharted when to ask for its pyramid fails. -/
theorem uncharted_iff : atlas.Uncharted set ↔ ∃ error : Error, (pyramidOf set).onState atlas = (.error error, atlas) := by
  unfold pyramidOf pyramid
  rw [Run.onState_ofState]
  constructor
  · rintro ⟨hundrawn, error, herror⟩
    rw [hundrawn, herror]
    exact ⟨error, rfl⟩
  · rintro ⟨error, herror⟩
    cases hdrawn : atlas.drawn? set.layer set.gridset with
    | some pyramid =>
      rw [hdrawn] at herror
      cases herror
    | none =>
      refine ⟨hdrawn, ?_⟩
      rw [hdrawn] at herror
      cases hdraw : atlas.draw set.layer set.gridset with
      | ok pyramid =>
        rw [hdraw] at herror
        cases herror
      | error error => exact ⟨error, rfl⟩

/-- A layer is uncharted once it is published no more and its pyramids are forgotten. -/
theorem uncharted_withdraw (atlas : Atlas) (set : TileSet) :
    (forget { atlas with table := atlas.table.withdraw set.layer } set.layer).Uncharted set := by
  refine ⟨?_, .notFound s!"layer {set.layer}", ?_⟩
  · simp [forget, drawn?]
  · simp only [draw, forget, CoverageTable.areas, CoverageTable.find, CoverageTable.withdraw, Table.getElem?_erase, if_true]
    rfl

/-- Whatever needs the pyramid fails, and draws nothing. -/
theorem Uncharted.onState_bind {α : Type} (h : atlas.Uncharted set) (next : Pyramid → Run Atlas α) :
    ∃ error : Error, (pyramidOf set >>= next).onState atlas = (.error error, atlas) := by
  obtain ⟨error, herror⟩ := uncharted_iff.mp h
  exact ⟨error, Run.onState_bind_error herror⟩

end Atlas

namespace Sweeper

variable {σ : Type} {sweeper : Sweeper σ} {state : σ}

/-- The pages that are recorded of some tile sets and not known to be empty. -/
def recorded (ledger : Ledger) (sets : List TileSet) : List PageEntry :=
  sets.flatMap fun set => (ledger.pagesOf set.id).filter fun entry => !entry.stats.isEmpty

theorem candidatesOf_uncharted {books : Books} {set : TileSet} (h : books.atlas.Uncharted set) :
    (candidatesOf set).onState books = (.ok ((books.ledger.pagesOf set.id).filter fun entry => !entry.stats.isEmpty), books) := by
  obtain ⟨error, herror⟩ : ∃ error : Error, (Atlas.pagesOf set 0).onState books.atlas = (.error error, books.atlas) :=
    h.onState_bind _
  have hattempt : (Run.attempt (Books.atlasCell.run (Atlas.pagesOf set 0))).onState books = (.ok (.error error), books) := by
    rw [Run.onState_attempt, Run.onState_cell, show Books.atlasCell.read books = books.atlas from rfl, herror]
    rfl
  rw [candidatesOf, Run.onState_bind_ok (Run.onState_cell_get _ _), Run.onState_bind_ok hattempt]
  rfl

/-- The pages that are recorded are found. -/
theorem candidates_uncharted {books : Books} {sets : List TileSet} (h : ∀ set ∈ sets, books.atlas.Uncharted set) :
    (candidates sets).onState books = (.ok (recorded books.ledger sets), books) := by
  induction sets with
  | nil => rfl
  | cons set sets ih =>
    have hset := candidatesOf_uncharted (h set List.mem_cons_self)
    have hsets := ih fun other hother => h other (List.mem_cons_of_mem set hother)
    rw [candidates, Run.onState_bind_ok hset, Run.onState_bind_ok hsets]
    rfl

/-- A sweeper whose state is not changed by its locks, nor by writing to the books what stands in them. -/
structure Still (sweeper : Sweeper σ) : Prop where
  books : ∀ state, sweeper.books.write (sweeper.books.read state) state = state
  acquire : ∀ name state, ((sweeper.locks.acquire name).onState state).2 = state
  release : ∀ name state, ((sweeper.locks.release name).onState state).2 = state

/-- A page of a tile set without a pyramid is passed over, whether its lock can be taken or not. -/
theorem Still.tryPage (h : sweeper.Still) {set : TileSet} (hset : (sweeper.books.read state).atlas.Uncharted set)
    (entry : PageEntry) : (sweeper.tryPage set entry).onState state = (.ok none, state) := by
  have hacquire := h.acquire (lockName entry.page.key) state
  rcases hlock : (sweeper.locks.acquire (lockName entry.page.key)).onState state with ⟨error | _, held⟩
  all_goals
    rw [hlock] at hacquire
    obtain rfl : held = state := hacquire
  · have hattempt : (Run.attempt (sweeper.locks.acquire (lockName entry.page.key))).onState held =
        (.ok (.error error), held) := by
      rw [Run.onState_attempt, hlock]
    exact Run.onState_bind_ok hattempt
  · obtain ⟨error, herror⟩ : ∃ error : Error, (Atlas.areaOf set entry.page).onState (sweeper.books.read held).atlas =
        (.error error, (sweeper.books.read held).atlas) := hset.onState_bind _
    have harea : (sweeper.books.run (Books.atlasCell.run (Atlas.areaOf set entry.page))).onState held = (.error error, held) := by
      rw [onState_drawing, herror]
      exact congrArg (Prod.mk _) (h.books held)
    have hpage : (sweeper.truncatePage set entry).onState held = (.error error, held) := Run.onState_bind_error harea
    rw [onState_tryPage hlock hpage, h.release]
    rfl

/-- So are all candidates of such tile sets. -/
theorem Still.sweepFrom (h : sweeper.Still) (hgoes : sweeper.cancelled state = false) {byId : Std.ExtTreeMap String TileSet}
    (hsets : ∀ (id : String) (set : TileSet), byId[id]? = some set → (sweeper.books.read state).atlas.Uncharted set)
    (deficit : ByteSize) (swept : Swept) : ∀ (entries : List PageEntry) (tried : Std.ExtTreeMap PageKey Unit),
      (sweeper.sweepFrom byId deficit entries tried swept).onState state = (.ok swept, state) := by
  intro entries
  induction entries with
  | nil => intro tried; rfl
  | cons entry rest ih =>
    intro tried
    by_cases hcovered : deficit.bytes ≤ swept.freed.bytes
    · exact onState_sweepFrom_of_covered hgoes hcovered
    have hshort : swept.freed.bytes < deficit.bytes := Int.not_le.mp hcovered
    cases htried : tried.contains entry.page.key with
    | true => exact (onState_sweepFrom_of_tried hgoes hshort htried).trans (ih tried)
    | false =>
      cases hset : byId[entry.page.key.tileSet]? with
      | none => exact (onState_sweepFrom_of_unknown hgoes hshort htried hset).trans (ih _)
      | some set =>
        exact (onState_sweepFrom_cons hgoes hshort htried hset (h.tryPage (hsets _ _ hset) entry)).trans (ih _)

theorem Still.candidates (h : sweeper.Still) {sets : List TileSet}
    (hsets : ∀ set ∈ sets, (sweeper.books.read state).atlas.Uncharted set) :
    (sweeper.books.run (Sweeper.candidates sets)).onState state =
      (.ok (recorded (sweeper.books.read state).ledger sets), state) := by
  rw [Run.onState_cell, candidates_uncharted hsets]
  exact congrArg (Prod.mk _) (h.books state)

/-- A sweep over such tile sets does nothing. -/
theorem Still.sweep (h : sweeper.Still) (hgoes : sweeper.cancelled state = false) {sets : List TileSet}
    (hsets : ∀ set ∈ sets, (sweeper.books.read state).atlas.Uncharted set) (policy : Policy) (deficit : ByteSize) :
    (sweeper.sweep sets policy deficit).onState state = (.ok .nothing, state) := by
  rw [Sweeper.sweep, Run.onState_bind_ok (h.candidates hsets)]
  refine h.sweepFrom hgoes (fun id set hset => ?_) deficit .nothing _ ∅
  obtain ⟨other, hother, heq⟩ := List.mem_map.mp (Table.mem_of_getElem?_ofList hset)
  exact (Prod.mk.inj heq).2 ▸ hsets other hother

end Sweeper

/-- Nor does it help to sweep them again and again, until nothing is in excess. -/
theorem Enforcer.sweepAll_uncharted {σ : Type} {enforcer : Enforcer σ} (h : enforcer.sweeper.Still) {state : σ}
    (hgoes : enforcer.sweeper.cancelled state = false) {sets : Accountant → Ledger → List TileSet}
    (hsets : ∀ set ∈ sets (enforcer.accountant.read state) (enforcer.sweeper.books.read state).ledger,
      (enforcer.sweeper.books.read state).atlas.Uncharted set) (policy : Policy) (excess : Accountant → Ledger → ByteSize) :
    (enforcer.sweepAll policy excess sets).onState state = (.ok .nothing, state) := by
  rw [sweepAll, Run.onState_bind_ok (onState_consult enforcer excess state)]
  split
  · rfl
  · rename_i hexcess
    rw [Run.onState_bind_ok (onState_consult enforcer sets state), Run.onState_bind_ok (h.candidates hsets), sweepUntil,
      Run.onState_bind_ok (onState_consult enforcer excess state), if_neg hexcess,
      Run.onState_bind_ok (onState_consult enforcer sets state), Run.onState_bind_ok (h.sweep hgoes hsets policy _)]
    rfl

namespace Depot

theorem still_sweeper_current (plan : DepotPlan) (cancelled : Cell Depot Bool) :
    (plan.sweeper currentBooksCell cancelled).Still where
  books depot := by
    change currentBooksCell.write (currentBooksCell.read depot) depot = depot
    unfold currentBooksCell currentLedger
    cases depot with
    | mk _ _ _ loaded => cases loaded <;> rfl
  acquire := plan.locks.onState_acquire_unheld
  release := plan.locks.onState_release DepotPlan.unheld

theorem still_sweeper (plan : DepotPlan) (cancelled : Cell Depot Bool) : (plan.sweeper booksCell cancelled).Still where
  books _ := rfl
  acquire := plan.locks.onState_acquire_unheld
  release := plan.locks.onState_release DepotPlan.unheld

/-- A sweep over tile sets without a pyramid finds the pages that are recorded of them, and passes over each. It truncates
nothing, whatever the deficit is, and changes nothing in the depot. -/
theorem uncharted_pages_stay (plan : DepotPlan) {sets : List TileSet} {depot : Depot}
    (hsets : ∀ set ∈ sets, depot.atlas.Uncharted set) (hgoes : depot.cancelled = false) (policy : Policy)
    (deficit : ByteSize) :
    (currentBooksCell.run (Sweeper.candidates sets)).onState depot =
        (.ok (Sweeper.recorded depot.currentLedger sets), depot) ∧
      (∀ set ∈ sets, ∀ entry ∈ Sweeper.recorded depot.currentLedger sets,
        ((plan.sweeper currentBooksCell cancelledCell).tryPage set entry).onState depot = (.ok none, depot)) ∧
      (plan.sweep sets policy deficit).onState depot = (.ok .nothing, depot) := by
  have hstill := still_sweeper_current plan cancelledCell
  exact ⟨hstill.candidates hsets, fun set hset entry _ => hstill.tryPage (hsets set hset) entry,
    hstill.sweep hgoes hsets policy deficit⟩

/-- A layer of which no pyramid can be drawn keeps what it uses, however much its quota is exceeded. -/
theorem uncharted_layer_stays (plan : DepotPlan) {layer : String} {policy : Policy} {depot : Depot}
    (hsets : ∀ set ∈ depot.ledger.tileSetsOf layer, depot.atlas.Uncharted set) (hgoes : depot.cancelled = false)
    (hallowed : ((accountantCell.read depot).allowed layer).isSome = true)
    (hpolicy : (accountantCell.read depot).policyFor layer = .ok policy) :
    (plan.enforce layer).onState depot = (.ok .nothing, depot) := by
  have hstill : (plan.enforcer cancelledCell).sweeper.Still := still_sweeper plan cancelledCell
  exact (Enforcer.onState_enforce (plan.enforcer cancelledCell) depot hallowed hpolicy).trans
    (Enforcer.sweepAll_uncharted hstill hgoes hsets policy _)

end Depot

namespace Sample

/-- A tile set of the layer that is withdrawn. -/
def roads : TileSet := .of "roads" "world" "png" none

/-- A depot in which one tile of five bytes is recorded of a layer that is published no more. -/
def withdrawn : Depot :=
  let depot := (DepotPlan.single "tiles" .calm).opened (.atMinutes 1000) table none
  { depot with
    atlas := .forget { depot.atlas with table := depot.atlas.table.withdraw "roads" } "roads"
    ledger := (Ledger.empty.addTiles roads (.ofIndex roads.id ⟨0, 0, 3⟩ 0) 1 1 5 1000).2 }

theorem uncharted_withdrawn : withdrawn.atlas.Uncharted roads := Atlas.uncharted_withdraw (.ofTable table) roads

theorem recorded_withdrawn : (Sweeper.recorded withdrawn.currentLedger [roads]).map (·.page.index) = [⟨0, 0, 3⟩] := by
  decide +kernel

end Sample

namespace Depot

/-- The page on which the tile is recorded is found, and stays. -/
theorem uncharted_pages_stay_withdrawn :
    (∀ set ∈ [Sample.roads], Sample.withdrawn.atlas.Uncharted set) ∧ Sample.withdrawn.cancelled = false ∧
      ∃ entry : PageEntry, entry.page.index = ⟨0, 0, 3⟩ ∧
        (currentBooksCell.run (Sweeper.candidates [Sample.roads])).onState Sample.withdrawn = (.ok [entry], Sample.withdrawn) ∧
        ((DepotPlan.single "tiles" .calm).sweep [Sample.roads] .leastRecent (.ofBytes 5)).onState Sample.withdrawn =
          (.ok .nothing, Sample.withdrawn) := by
  have hsets : ∀ set ∈ [Sample.roads], Sample.withdrawn.atlas.Uncharted set := by
    intro set hset
    rw [List.mem_singleton.mp hset]
    exact Sample.uncharted_withdrawn
  obtain ⟨hcandidates, -, hsweep⟩ := uncharted_pages_stay (.single "tiles" .calm) hsets rfl .leastRecent (.ofBytes 5)
  obtain ⟨entry, hentry, hindex⟩ := List.map_eq_singleton_iff.mp Sample.recorded_withdrawn
  rw [hentry] at hcandidates
  exact ⟨hsets, rfl, entry, hindex, hcandidates, hsweep⟩

/-- No pyramid can be drawn of the tile set, and one page with a tile is recorded of it. A sweep that is to free a byte leaves
the page as it is. -/
theorem recorded_page_not_swept :
    Sample.withdrawn.atlas.Uncharted Sample.roads ∧
      (Sweeper.recorded Sample.withdrawn.currentLedger [Sample.roads]).map (·.page.index) = [⟨0, 0, 3⟩] ∧
      ((DepotPlan.single "tiles" .calm).sweep [Sample.roads] .leastRecent (.ofBytes 1)).onState Sample.withdrawn =
        (.ok .nothing, Sample.withdrawn) := by
  refine ⟨Sample.uncharted_withdrawn, Sample.recorded_withdrawn, ?_⟩
  refine (still_sweeper_current _ cancelledCell).sweep rfl (fun set hset => ?_) _ _
  rw [List.mem_singleton.mp hset]
  exact Sample.uncharted_withdrawn

end Depot

end TileDepot
