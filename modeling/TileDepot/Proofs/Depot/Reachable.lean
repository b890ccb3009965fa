import TileDepot.Proofs.Depot.Swept
import TileDepot.Proofs.Orphans

/-!
# States of a depot

A depot comes from one state to the next by requests, and within the sweeps that requests ask for by one page after the other.
What is upheld and outlives the requests that are allowed is true of every state that is reached, between requests and within
sweeps. A layer may be renamed to one with other coverages as well; then it is still true that names are plain, that the ledger
is sound, and that no usage is below zero.
-/

namespace TileDepot

/-- A call that keeps names plain and leaves the listeners alone. -/
def StoreCall.Plain : StoreCall → Prop
  | .put tile => tile.key.Plain
  | .rename _ target => PlainName target
  | .addListener _ | .removeListener _ => False
  | _ => True

namespace Request

/-- A request that keeps names plain and leaves the listeners alone. -/
def Plain : Request → Prop
  | .call asked => asked.Plain
  | hits tile _ => tile.Plain
  | sweep _ sets _ _ => ∀ set ∈ sets, set.Plain
  | _ => True

/-- A request that keeps names plain is admissible, unless it renames a layer. -/
theorem Plain.cases {request : Request} (h : request.Plain) (table : CoverageTable) :
    request.Admissible table ∨ ∃ layer target, request = .call (.rename layer target) ∧ PlainName target := by
  cases request with
  | call asked =>
    cases asked with
    | rename layer target => exact Or.inr ⟨layer, target, rfl, h⟩
    | _ => exact Or.inl h
  | _ => exact Or.inl h

/-- An admissible request has plain names. -/
theorem Admissible.plain {request : Request} {table : CoverageTable} (h : request.Admissible table) : request.Plain := by
  cases request with
  | call asked =>
    cases asked with
    | rename layer target => exact h.1
    | _ => exact h
  | _ => exact h

end Request

/-- A ledger that is intact stays so when a tile is recorded. -/
theorem Ledger.Intact.recorded {ledger : Ledger} (h : ledger.Intact) (table : CoverageTable) (key : TileKey)
    (tiles bytes now : Int) : (ledger.recorded table key tiles bytes now).Intact := by
  unfold Ledger.recorded
  split
  · exact h
  · exact h.addTilesBy (fun _ _ _ => Ledger.ofTotals_nonneg _ _) rfl _ _ _ _

/-- Plain names, a sound ledger, and no usage below zero. -/
structure Upright (sizes : Sizes) (ledger : Ledger) : Prop extends Kept sizes ledger where
  intact : ledger.Intact

namespace Upright

variable {before after : Sizes} {ledger : Ledger}

/-- An empty ledger is upright when nothing is stored. -/
theorem empty : Upright ∅ .empty := ⟨⟨fun h => by simp at h, Ledger.sound_empty⟩, Ledger.allots_empty _⟩

/-- That a ledger is upright outlives every event. -/
theorem upheld (table : CoverageTable) (rounded : Nat → Nat) : Upheld table rounded Upright where
  kept h := h.toKept
  heard {before after ledger event} h htells hadmissible now := by
    refine ⟨h.toKept.heard rounded htells hadmissible now, ?_⟩
    rcases event.kinds with ⟨tile, htile⟩ | ⟨layer, target, rfl⟩ | ⟨htile, hrename⟩
    · rw [Ledger.heard_of_tile htile]
      exact h.intact.recorded table tile _ _ now
    · exact h.intact.renameLayer layer target
    · rw [Ledger.heard_of_bulk htile hrename]
      exact h.intact.drop _
  hits h hkey _ hits now :=
    ⟨⟨h.plain, h.sound.addHits hkey.tileSet rfl hits now⟩, h.intact.perform (.addHits _ _ rfl hits now)⟩
  truncated h hset hpage _ now :=
    ⟨⟨h.plain, h.sound.setTruncated hset hpage now⟩, h.intact.perform (.setTruncated _ _ hpage now)⟩

/-- No coverage matters to the renaming of a layer. -/
theorem renamed (h : Upright before ledger) {layer target : String} (ht : PlainName target)
    (htells : (Event.layerRenamed layer target).Tells before after) : Upright after (ledger.renameLayer layer target) := by
  have hsame : CoverageTable.SameCoverage ⟨∅⟩ layer target := CoverageTable.sameCoverage_of_layers (by simp)
  exact (upheld ⟨∅⟩ id).heard h htells ⟨ht, hsame⟩ 0

end Upright

/-- With the usage recorded as it is, the sweeper is that of the depot. -/
theorem DepotPlan.sweeperBy_record (name : String) (conditions : Conditions) (books : Cell Depot Books) :
    sweeperBy Usage.record name conditions books = (single name conditions).sweeper books Depot.cancelledCell := by
  rw [sweeperBy, truncateBy_record]
  rfl

namespace Depot

variable {table : CoverageTable} {upkeep : Upkeep table} {name : String} {depot : Depot}

/-- A layer is renamed in a depot that is up to date, if what is upheld outlives that. -/
theorem UpToDate.rename (h : depot.UpToDate upkeep name) {layer target : String}
    (hholds : ∀ {after : Sizes}, (Event.layerRenamed layer target).Tells (depot.store name).sizes after →
      upkeep.holds after (depot.ledger.renameLayer layer target)) :
    ((storeBy Usage.record name (.rename layer target)).onState depot).2.UpToDate upkeep name := by
  cases hanswer : (depot.store name).answer (.rename layer target) with
  | error error =>
    rw [onState_storeBy_of_error Usage.record hanswer]
    exact h
  | ok outcome =>
    obtain ⟨moved, events, store⟩ := outcome
    obtain ⟨hrename, rfl⟩ := Resident.answer_rename hanswer
    have hmembers : store.listeners.members = [.accountant] := by
      rw [Resident.listeners_rename hrename]
      exact h.listeners
    have hbooked := h.booked_write hmembers h.holds
    rw [onState_storeBy_of_ok Usage.record hanswer hmembers]
    cases moved with
    | false =>
      obtain ⟨-, ⟨-, rfl⟩ | ⟨hmoved, -⟩⟩ := Resident.rename_ok hrename
      · change ((residentCell name).write (depot.store name) depot).UpToDate upkeep name
        rwa [UpToDate, store_write]
      · cases hmoved
    | true =>
      have htells := (Resident.rename_story hrename).tells
      obtain ⟨-, hafter, hheard⟩ := hbooked.hear htells upkeep.blind_record fun _ => hholds htells
      rw [if_pos rfl, List.foldl_cons, List.foldl_nil]
      rwa [hearBy_record, UpToDate, hheard.store_eq, store_write]

/-! ## States that are reached -/

/-- The states of a depot of which only what is allowed is asked: those between requests, and those within the sweep of a
request, which may be in any conditions. -/
inductive Reached (allowed : Request → Prop) (name : String) (clock : Clock) (table : CoverageTable) (accountant : Accountant) :
    Depot → Prop where
  | start : Reached allowed name clock table accountant (start name clock table accountant)
  | perform {depot : Depot} (h : Reached allowed name clock table accountant depot) {request : Request}
      (hrequest : allowed request) : Reached allowed name clock table accountant (request.perform name depot)
  /-- A request begins. -/
  | nextStep {depot : Depot} (h : Reached allowed name clock table accountant depot) (cancelled : Bool) :
      Reached allowed name clock table accountant (depot.nextStep cancelled)
  /-- A sweep has looked for its candidates. -/
  | candidates {depot : Depot} (h : Reached allowed name clock table accountant depot) {books : Cell Depot Books}
      (hbooks : GoesByBooks books) (sets : List TileSet) :
      Reached allowed name clock table accountant ((books.run (Sweeper.candidates sets)).onState depot).2
  /-- A sweep has truncated a page, or tried to. -/
  | truncatePage {depot : Depot} (h : Reached allowed name clock table accountant depot) {books : Cell Depot Books}
      (hbooks : GoesByBooks books) (conditions : Conditions) {set : TileSet} (hset : set.Plain) {entry : PageEntry}
      (hid : entry.page.tileSet = set.id) :
      Reached allowed name clock table accountant
        ((((DepotPlan.single name conditions).sweeper books cancelledCell).truncatePage set entry).onState depot).2

/-- What is upheld from the start and outlives the requests that are allowed is upheld in every state that is reached. -/
theorem Reached.upToDate {allowed : Request → Prop} {clock : Clock} {accountant : Accountant} (hfits : upkeep.fits accountant)
    (hempty : upkeep.holds ∅ .empty)
    (hrequest : ∀ {depot : Depot} {request : Request}, depot.UpToDate upkeep name → allowed request →
      (request.perform name depot).UpToDate upkeep name)
    (h : Reached allowed name clock table accountant depot) : depot.UpToDate upkeep name := by
  induction h with
  | start => exact upToDate_start upkeep name clock hfits hempty
  | perform _ hallowed ih => exact hrequest ih hallowed
  | nextStep _ cancelled ih => exact ih.nextStep cancelled
  | candidates _ hbooks sets ih => exact (agree_candidates hbooks sets _ ih).2
  | truncatePage _ hbooks conditions hset hid ih =>
    obtain ⟨outcome, depot', hrun, hafter⟩ := ih.truncatePage hbooks conditions hset hid
    have hrecord := hrun Usage.record upkeep.blind_record
    rw [DepotPlan.sweeperBy_record] at hrecord
    rw [hrecord]
    exact hafter

/-- What is reached by some requests and then by others is reached by all of them. -/
theorem Reached.serve {allowed : Request → Prop} {clock : Clock} {accountant : Accountant} (requests : List Request)
    (h : Reached allowed name clock table accountant depot) (hrequests : ∀ request ∈ requests, allowed request) :
    Reached allowed name clock table accountant (depot.serve name requests) :=
  List.foldlRecOn (motive := Reached allowed name clock table accountant) requests (Request.perform name) h
    fun _ hbefore request hrequest => hbefore.perform (hrequests request hrequest)

/-- However layers are renamed, names are plain and no usage is below zero. -/
theorem Reached.upright {clock : Clock} {accountant : Accountant} (h : Reached Request.Plain name clock table accountant depot) :
    depot.UpToDate (.ofUpheld accountant (Upright.upheld table accountant.rounded)) name := by
  refine h.upToDate rfl Upright.empty fun {depot request} hdepot hrequest => ?_
  rcases hrequest.cases table with hadmissible | ⟨layer, target, rfl, ht⟩
  · have hclears : (Upkeep.ofUpheld accountant (Upright.upheld table accountant.rounded)).Clears :=
      fun h => ⟨⟨fun hkey => by simp at hkey, h.sound⟩, h.intact⟩
    exact (hdepot.perform (Upkeep.blind_record _) hadmissible fun _ => hclears).2
  · have hholds : ∀ {after : Sizes}, (Event.layerRenamed layer target).Tells (depot.store name).sizes after →
        Upright after (depot.ledger.renameLayer layer target) := fun htells => hdepot.holds.renamed ht htells
    have hrenamed := (hdepot.nextStep false).rename hholds
    rwa [storeBy_record name .calm] at hrenamed

/-- Where layers are renamed only to layers with the same coverages, no usage falls short of the tiles that are stored. -/
theorem Reached.ample {clock : Clock} {accountant : Accountant}
    (h : Reached (Request.Admissible table) name clock table accountant depot) :
    depot.UpToDate (.ofUpheld accountant (Follows.upheld ample_ge table accountant.rounded)) name := by
  refine h.upToDate rfl (.empty ample_ge table accountant.rounded) fun hdepot hrequest => ?_
  have hclears : (Upkeep.ofUpheld accountant (Follows.upheld ample_ge table accountant.rounded)).Clears := by
    intro sizes ledger h
    have hcleared : ∀ {amount : Nat → Int}, (∀ size, 0 ≤ amount size) → ∀ {id : String} {usage : Int},
        table.sumOf amount id sizes ≤ usage → table.sumOf amount id ∅ ≤ usage := by
      intro amount hamount id usage hle
      rw [CoverageTable.sumOf_eq_zero fun key hkey => absurd hkey (by simp)]
      exact (table.sumOf_nonneg sizes hamount id).trans hle
    exact ⟨⟨fun hkey => absurd hkey (by simp), h.sound⟩, fun id => hcleared (fun _ => Int.natCast_nonneg _) (h.used id),
      fun id => hcleared (fun _ => Int.one_nonneg) (h.tiles id)⟩
  exact (hdepot.perform (Upkeep.blind_record _) hrequest fun _ => hclears).2

end Depot

end TileDepot
