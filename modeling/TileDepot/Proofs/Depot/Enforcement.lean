import TileDepot.Proofs.Depot.Emptying
import TileDepot.Proofs.Quotas

/-!
# Quotas are enforced

Where something is in excess a covered tile is stored, its page is a candidate, and so every sweep empties a page. A page
that has been emptied is no candidate any more, so that the sweeps come to an end, and they end only when nothing is in
excess.
-/

namespace TileDepot

/-- Sweeps, each covering what is in excess before it and each emptying a page, until nothing is in excess. The counts of
what the sweeps have done are added up. -/
inductive Enforcer.Rounds {σ : Type} (enforcer : Enforcer σ) (policy : Policy) (excess : Accountant → Ledger → ByteSize)
    (sets : Accountant → Ledger → List TileSet) : Swept → σ → Swept → σ → Prop where
  | settled {total : Swept} {state : σ}
      (settled : (excess (enforcer.accountant.read state) (enforcer.sweeper.books.read state).ledger).bytes ≤ 0) :
      Rounds enforcer policy excess sets total state total state
  | round {total swept total' : Swept} {state between after : σ}
      (positive : 0 < (excess (enforcer.accountant.read state) (enforcer.sweeper.books.read state).ledger).bytes)
      (sweep : (enforcer.sweeper.sweep (sets (enforcer.accountant.read state) (enforcer.sweeper.books.read state).ledger) policy
        (excess (enforcer.accountant.read state) (enforcer.sweeper.books.read state).ledger)).onState state =
          (.ok swept, between))
      (progress : swept.pages ≠ 0)
      (rest : Rounds enforcer policy excess sets (total.merge swept) between total' after) :
      Rounds enforcer policy excess sets total state total' after

/-- After the last round nothing is in excess. -/
theorem Enforcer.Rounds.settled_after {σ : Type} {enforcer : Enforcer σ} {policy : Policy}
    {excess : Accountant → Ledger → ByteSize} {sets : Accountant → Ledger → List TileSet} {total total' : Swept}
    {state after : σ} (h : enforcer.Rounds policy excess sets total state total' after) :
    (excess (enforcer.accountant.read after) (enforcer.sweeper.books.read after).ledger).bytes ≤ 0 := by
  induction h with
  | settled settled => exact settled
  | round _ _ _ _ ih => exact ih

namespace Enforcer

variable {σ : Type}

/-- To look at the accountant and the ledger changes nothing. -/
theorem onState_consult {α : Type} (enforcer : Enforcer σ) (view : Accountant → Ledger → α) (state : σ) :
    (enforcer.consult view).onState state =
      (.ok (view (enforcer.accountant.read state) (enforcer.sweeper.books.read state).ledger), state) := rfl

/-- A layer with a quota is swept by the policy it follows. -/
theorem onState_enforce (enforcer : Enforcer σ) (state : σ) {layer : String} {policy : Policy}
    (hallowed : ((enforcer.accountant.read state).allowed layer).isSome = true)
    (hpolicy : (enforcer.accountant.read state).policyFor layer = .ok policy) :
    (enforcer.enforce layer).onState state =
      (enforcer.sweepAll policy (fun accountant ledger => (accountant.excess ledger layer).getD .zero)
        fun _ ledger => ledger.tileSetsOf layer).onState state := by
  have hsome : ¬((enforcer.accountant.read state).allowed layer).isNone = true := by
    rw [Option.isNone_eq_false_iff.mpr hallowed]
    exact Bool.false_ne_true
  rw [enforce, Run.onState_bind_ok (onState_consult enforcer _ state), if_neg hsome]
  refine (Run.onState_bind_ok (onState_consult enforcer _ state)).trans ?_
  rw [hpolicy]
  exact Run.onState_bind_ok (Run.onState_result (.ok policy) state)

/-- The layers under the global quota are swept by the policy of the depot. -/
theorem onState_enforceGlobal (enforcer : Enforcer σ) (state : σ) {policy : Policy}
    (hpolicy : (enforcer.accountant.read state).globalPolicy = .ok policy) :
    enforcer.enforceGlobal.onState state =
      (enforcer.sweepAll policy Accountant.globalExcess Accountant.globalTileSets).onState state := by
  rw [enforceGlobal, Run.onState_bind_ok (onState_consult enforcer _ state), hpolicy]
  exact Run.onState_bind_ok (Run.onState_result (.ok policy) state)

variable {enforcer : Enforcer σ} {policy : Policy} {excess : Accountant → Ledger → ByteSize}
  {setsOf : Accountant → Ledger → List TileSet} {state : σ}

/-- While something is in excess there is a sweep, and as long as sweeps empty pages there are more of them. -/
theorem onState_sweepUntil_of_positive {swept : Swept} {between : σ}
    (hpositive : 0 < (excess (enforcer.accountant.read state) (enforcer.sweeper.books.read state).ledger).bytes)
    (hsweep : (enforcer.sweeper.sweep (setsOf (enforcer.accountant.read state) (enforcer.sweeper.books.read state).ledger) policy
      (excess (enforcer.accountant.read state) (enforcer.sweeper.books.read state).ledger)).onState state = (.ok swept, between))
    (hswept : swept.pages ≠ 0) (rounds : Nat) (total : Swept) :
    (enforcer.sweepUntil policy excess setsOf (rounds + 1) total).onState state =
      (enforcer.sweepUntil policy excess setsOf rounds (total.merge swept)).onState between := by
  rw [sweepUntil, Run.onState_bind_ok (onState_consult enforcer excess state),
    if_neg (by simpa using ByteSize.isPositive_iff.mpr hpositive)]
  refine (Run.onState_bind_ok (onState_consult enforcer setsOf state)).trans ((Run.onState_bind_ok hsweep).trans ?_)
  rw [if_neg hswept]

/-- Where something is in excess, there are at most so many sweeps as there are candidates, and one more. -/
theorem onState_sweepAll_of_positive {entries : List PageEntry} {looked : σ}
    (hpositive : 0 < (excess (enforcer.accountant.read state) (enforcer.sweeper.books.read state).ledger).bytes)
    (hcandidates : (enforcer.sweeper.books.run (Sweeper.candidates (setsOf (enforcer.accountant.read state)
      (enforcer.sweeper.books.read state).ledger))).onState state = (.ok entries, looked)) :
    (enforcer.sweepAll policy excess setsOf).onState state =
      (enforcer.sweepUntil policy excess setsOf (entries.length + 1) .nothing).onState looked := by
  rw [sweepAll, Run.onState_bind_ok (onState_consult enforcer excess state),
    if_neg (by simpa using ByteSize.isPositive_iff.mpr hpositive)]
  exact (Run.onState_bind_ok (onState_consult enforcer setsOf state)).trans (Run.onState_bind_ok hcandidates)

/-- Where nothing is in excess nothing is done. -/
theorem onState_sweepUntil_of_settled
    (hsettled : (excess (enforcer.accountant.read state) (enforcer.sweeper.books.read state).ledger).bytes ≤ 0) (rounds : Nat)
    (total : Swept) : (enforcer.sweepUntil policy excess setsOf (rounds + 1) total).onState state = (.ok total, state) := by
  rw [sweepUntil, Run.onState_bind_ok (onState_consult enforcer excess state),
    if_pos (by simpa using mt ByteSize.isPositive_iff.mp (Int.not_lt.mpr hsettled))]
  rfl

/-- Where nothing is in excess nothing is swept. -/
theorem onState_sweepAll_of_settled
    (hsettled : (excess (enforcer.accountant.read state) (enforcer.sweeper.books.read state).ledger).bytes ≤ 0) :
    (enforcer.sweepAll policy excess setsOf).onState state = (.ok .nothing, state) := by
  rw [sweepAll, Run.onState_bind_ok (onState_consult enforcer excess state),
    if_pos (by simpa using mt ByteSize.isPositive_iff.mp (Int.not_lt.mpr hsettled))]
  rfl

/-- Where something is in excess and the candidates come in order, the first sweep goes through them as they come. -/
theorem onState_sweepAll_of_isChain {sets : List TileSet} {deficit : ByteSize} {counted entries : List PageEntry}
    {looked again between : σ} {swept : Swept}
    (hsets : setsOf (enforcer.accountant.read state) (enforcer.sweeper.books.read state).ledger = sets)
    (hpositive : 0 < (excess (enforcer.accountant.read state) (enforcer.sweeper.books.read state).ledger).bytes)
    (hcounted : (enforcer.sweeper.books.run (Sweeper.candidates sets)).onState state = (.ok counted, looked))
    (hagain : setsOf (enforcer.accountant.read looked) (enforcer.sweeper.books.read looked).ledger = sets)
    (hexcess : excess (enforcer.accountant.read looked) (enforcer.sweeper.books.read looked).ledger = deficit)
    (hdeficit : 0 < deficit.bytes)
    (hcandidates : (enforcer.sweeper.books.run (Sweeper.candidates sets)).onState looked = (.ok entries, again))
    (hordered : entries.IsChain fun a b => policy.order a b = .lt)
    (hsweep : (enforcer.sweeper.sweepFrom (.ofList (sets.map fun set => (set.id, set))) deficit entries ∅ .nothing).onState
      again = (.ok swept, between))
    (hswept : swept.pages ≠ 0) :
    (enforcer.sweepAll policy excess setsOf).onState state =
      (enforcer.sweepUntil policy excess setsOf counted.length (Swept.nothing.merge swept)).onState between := by
  subst hsets hexcess
  rw [onState_sweepAll_of_positive hpositive hcounted]
  refine onState_sweepUntil_of_positive hdeficit ?_ hswept _ _
  rw [hagain, Sweeper.onState_sweep_of_isChain hcandidates hordered, hsweep]

end Enforcer

namespace Depot

variable {table : CoverageTable} {upkeep : Upkeep table} {name : String} {conditions : Conditions} {depot : Depot}

/-- What is to be enforced in a depot whose pages words have room for: an amount in excess and the tile sets to be swept for it. As
long as accountant and tile sets stay what they are, the tile sets to be swept are the same registered ones, and whenever
something is in excess a covered tile of one of them is stored. -/
structure Enforceable (upkeep : Upkeep table) (name : String) (excess : Accountant → Ledger → ByteSize)
    (setsOf : Accountant → Ledger → List TileSet) (sets : List TileSet) (depot : Depot) : Prop where
  fits : table.Fits
  plain : ∀ set ∈ sets, set.Plain
  registered : ∀ set ∈ sets, depot.ledger.tileSets[set.id]? = some set
  filled : ∀ {sizes : Sizes} {ledger : Ledger}, upkeep.holds sizes ledger → Filled table sizes ledger
  sets_eq : ∀ ledger : Ledger, ledger.tileSets = depot.ledger.tileSets → setsOf (accountantCell.read depot) ledger = sets
  covered : ∀ {sizes : Sizes} {ledger : Ledger}, upkeep.holds sizes ledger → ledger.tileSets = depot.ledger.tileSets →
    0 < (excess (accountantCell.read depot) ledger).bytes →
      ∃ key ∈ sizes, key.tileSet ∈ sets ∧ table.covers key = true

variable {excess : Accountant → Ledger → ByteSize} {setsOf : Accountant → Ledger → List TileSet} {sets : List TileSet}

/-- The pages that have been emptied were candidates at the start, no two of them the same one. -/
theorem Emptying.length_le {pages : List Page} {depot' : Depot} (h : Emptying table name sets pages depot depot')
    (hsound : depot.ledger.Sound) : pages.length ≤ (sets.flatMap (depot.ledger.candidatesOf table)).length := by
  have hsubset : pages.map Page.key ⊆ (sets.flatMap (depot.ledger.candidatesOf table)).map (·.page.key) := by
    intro key hkey
    obtain ⟨page, hpage, rfl⟩ := List.mem_map.mp hkey
    obtain ⟨range, set, hset, pyramid, area, hid, hdraw, harea, -⟩ := h.exists_rangeOf hpage
    have hmem := Ledger.key_mem_candidatesOf hsound hid hdraw harea (h.fresh page hpage)
    rw [List.map_flatMap]
    exact List.mem_flatMap.mpr ⟨set, hset, hmem⟩
  have hle := (List.subperm_of_subset h.nodup hsubset).length_le
  rwa [List.length_map, List.length_map] at hle

/-- One more sweep while something is in excess: it ends well, and empties some pages. -/
theorem UpToDate.sweep_once {start : Depot} (h : depot.UpToDate upkeep name) (hcalm : conditions.Calm)
    (hcancelled : start.cancelled = false) (htarget : Enforceable upkeep name excess setsOf sets start) (policy : Policy)
    {done : List Page} (hdone : Emptying table name sets done start depot)
    (hpositive : 0 < (excess (accountantCell.read depot) depot.ledger).bytes) :
    ∃ swept pages between,
      ((DepotPlan.enforcerBy Usage.record name conditions).sweeper.sweep (setsOf (accountantCell.read depot) depot.ledger) policy
        (excess (accountantCell.read depot) depot.ledger)).onState depot = (.ok swept, between) ∧
      between.UpToDate upkeep name ∧ Emptying table name sets (done ++ pages) start between ∧ swept.pages = pages.length ∧
      swept.pages ≠ 0 := by
  have haccountant : accountantCell.read depot = accountantCell.read start := by
    change depot.accountant.getD default = start.accountant.getD default
    rw [hdone.accountant]
  have hsets : setsOf (accountantCell.read depot) depot.ledger = sets := by
    rw [haccountant]
    exact htarget.sets_eq _ hdone.tileSets
  have hregistered : ∀ set ∈ sets, depot.ledger.tileSets[set.id]? = some set := by
    rw [hdone.tileSets]
    exact htarget.registered
  obtain ⟨swept, pages, between, hsweep, hbetween, hemptying, hpages, hprogress⟩ := h.sweep htarget.fits hcalm
    (hdone.cancelled.trans hcancelled) htarget.plain hregistered (htarget.filled h.holds) policy
    (excess (accountantCell.read depot) depot.ledger)
  refine ⟨swept, pages, between, ?_, hbetween, hdone.append hemptying, hpages, ?_⟩
  · rw [hsets]
    exact hsweep
  · have hnonempty : pages ≠ [] := by
      refine hprogress hpositive (htarget.covered h.holds hdone.tileSets ?_)
      rwa [haccountant] at hpositive
    rw [hpages]
    exact fun hzero => hnonempty (List.eq_nil_of_length_eq_zero hzero)

/-- Sweep after sweep, with more sweeps allowed for than there were candidates at the start. -/
theorem UpToDate.sweepUntil {start : Depot} (hstart : start.UpToDate upkeep name) (hcalm : conditions.Calm)
    (hcancelled : start.cancelled = false) (htarget : Enforceable upkeep name excess setsOf sets start) (policy : Policy) :
    ∀ (rounds : Nat) (total : Swept) (done : List Page) {depot : Depot}, depot.UpToDate upkeep name →
      Emptying table name sets done start depot → total.pages = done.length →
      (sets.flatMap (start.ledger.candidatesOf table)).length + 1 ≤ done.length + rounds →
        ∃ total' pages depot',
          ((DepotPlan.enforcerBy Usage.record name conditions).sweepUntil policy excess setsOf rounds total).onState depot =
            (.ok total', depot') ∧
          (DepotPlan.enforcerBy Usage.record name conditions).Rounds policy excess setsOf total depot total' depot' ∧
          depot'.UpToDate upkeep name ∧ Emptying table name sets pages start depot' ∧ total'.pages = pages.length := by
  intro rounds
  induction rounds with
  | zero =>
    -- every page emptied was a candidate at the start, so that there are sweeps left
    intro total done depot _ hdone _ hrounds
    have hle := hdone.length_le (htarget.filled hstart.holds).sound
    omega
  | succ rounds ih =>
    intro total done depot h hdone htotal hrounds
    by_cases hpositive : 0 < (excess (accountantCell.read depot) depot.ledger).bytes
    · obtain ⟨swept, pages, between, hsweep, hbetween, hmore, hpages, hswept⟩ :=
        h.sweep_once hcalm hcancelled htarget policy hdone hpositive
      obtain ⟨total', all, depot', hrun, hrounds', hafter, hall, htotal'⟩ := ih (total.merge swept) (done ++ pages) hbetween
        hmore (by rw [List.length_append, ← htotal, ← hpages]; rfl) (by rw [List.length_append]; omega)
      exact ⟨total', all, depot', (Enforcer.onState_sweepUntil_of_positive hpositive hsweep hswept rounds total).trans hrun,
        .round hpositive hsweep hswept hrounds', hafter, hall, htotal'⟩
    · have hsettled := Int.not_lt.mp hpositive
      exact ⟨total, done, depot, Enforcer.onState_sweepUntil_of_settled hsettled rounds total, .settled hsettled, h, hdone,
        htotal⟩

/-- To look for candidates once more makes no difference. -/
theorem UpToDate.candidates_again (h : depot.UpToDate upkeep name) (sets : List TileSet) :
    ∃ atlas : Atlas, atlas.Faithful table ∧
      (booksCell.run (Sweeper.candidates sets)).onState depot =
        (.ok (sets.flatMap (depot.ledger.candidatesOf table)), { depot with atlas }) ∧
      (booksCell.run (Sweeper.candidates sets)).onState { depot with atlas } =
        (booksCell.run (Sweeper.candidates sets)).onState depot := by
  obtain ⟨atlas, hatlas, hfirst⟩ := h.candidates goesByBooks_booksCell sets
  obtain ⟨atlas', hatlas', hsecond⟩ := (h.with_atlas hatlas.faithful).candidates goesByBooks_booksCell sets
  refine ⟨atlas, hatlas.faithful, hfirst, ?_⟩
  rw [hsecond, hfirst, hatlas'.same hatlas.settled]

/-- Sweeps until nothing is in excess. -/
theorem UpToDate.sweepAll (h : depot.UpToDate upkeep name) (hcalm : conditions.Calm) (hcancelled : depot.cancelled = false)
    (htarget : Enforceable upkeep name excess setsOf sets depot) (policy : Policy) :
    ∃ swept pages depot',
      ((DepotPlan.enforcerBy Usage.record name conditions).sweepAll policy excess setsOf).onState depot = (.ok swept, depot') ∧
      (DepotPlan.enforcerBy Usage.record name conditions).Rounds policy excess setsOf .nothing depot swept depot' ∧
      Emptying table name sets pages depot depot' ∧ swept.pages = pages.length := by
  by_cases hpositive : 0 < (excess (accountantCell.read depot) depot.ledger).bytes
  · have hsets := htarget.sets_eq depot.ledger rfl
    obtain ⟨atlas, hatlas, hcandidates, hagain⟩ := h.candidates_again sets
    obtain ⟨swept, pages, depot', hrun, hrounds, hafter, hemptying, hpages⟩ := h.sweepUntil hcalm hcancelled htarget policy
      ((sets.flatMap (depot.ledger.candidatesOf table)).length + 1) .nothing [] (h.with_atlas hatlas)
      (Emptying.with_atlas table name sets depot atlas) rfl (by rw [List.length_nil]; omega)
    refine ⟨swept, pages, depot', ?_, ?_, hemptying, hpages⟩
    · rw [← hsets] at hcandidates
      exact (Enforcer.onState_sweepAll_of_positive hpositive hcandidates).trans (by rw [← hrun, hsets])
    · cases hrounds with
      | settled settled => exact absurd hpositive (Int.not_lt.mpr settled)
      | round positive sweep progress rest =>
        have hsweep : ∀ deficit, ((DepotPlan.sweeperBy Usage.record name conditions booksCell).sweep sets policy deficit).onState
            { depot with atlas } =
              ((DepotPlan.sweeperBy Usage.record name conditions booksCell).sweep sets policy deficit).onState depot :=
          fun deficit => Run.onState_bind_congr hagain
        refine .round hpositive ?_ progress rest
        rw [← hsets] at hsweep
        exact (hsweep _).symm.trans sweep
  · have hsettled := Int.not_lt.mp hpositive
    exact ⟨.nothing, [], depot, Enforcer.onState_sweepAll_of_settled hsettled, .settled hsettled, .refl table name sets depot,
      rfl⟩

/-! ## What is in excess -/

/-- Usage that is tallied, pages that are filled, and quotas that can be enforced. -/
def quotaUpkeep (hfits : table.Fits) (accountant : Accountant) : Upkeep table where
  rounded := accountant.rounded
  fits other := other.settings = accountant.settings ∧ other.Sane
  holds sizes ledger := Tallied table accountant.rounded sizes ledger ∧ Filled table sizes ledger
  rounded_eq h := by
    funext size
    rw [Accountant.rounded, Accountant.rounded, h.1]
  fits_hear event now books h := ⟨(Accountant.hear_settings _ event now books).trans h.1, h.2.hear event now books⟩
  upheld := (Tallied.upheld table accountant.rounded).and (Filled.upheld hfits accountant.rounded)

variable {hfits : table.Fits} {accountant : Accountant} {sizes : Sizes} {ledger : Ledger}

/-- A layer in use has a covered tile, of a tile set that is registered. -/
theorem exists_covered (h : Tallied table accountant.rounded sizes ledger) {layer : String}
    (hused : 0 < (ledger.usedByLayer layer).bytes) :
    ∃ key ∈ sizes, key.tileSet ∈ ledger.tileSetsOf layer ∧ table.covers key = true := by
  rw [h.usedByLayer] at hused
  obtain ⟨key, size, hsize, hpos⟩ := Table.exists_of_weigh_pos hused
  have hkey : key ∈ sizes := Table.mem_iff_exists.mpr ⟨size, hsize⟩
  split at hpos
  · rename_i hkind
    refine ⟨key, hkey, ?_, hkind.2⟩
    exact (Ledger.mem_tileSetsOf h.sound).mpr ⟨h.registered hkey hkind.2, hkind.1⟩
  · exact absurd hpos (Int.lt_irrefl 0)

/-- The tile sets of a layer depend on those that are registered only. -/
theorem tileSetsOf_congr {ledger' : Ledger} (h : ledger'.tileSets = ledger.tileSets) :
    ledger'.tileSetsOf = ledger.tileSetsOf := by
  funext layer
  rw [Ledger.tileSetsOf, Ledger.tileSetsOf, Ledger.allTileSets, Ledger.allTileSets, h]

/-- So do the layers and the tile sets that the global quota is for. -/
theorem globalTileSets_congr {ledger' : Ledger} (h : ledger'.tileSets = ledger.tileSets) (accountant : Accountant) :
    accountant.globalLayers ledger' = accountant.globalLayers ledger ∧
      accountant.globalTileSets ledger' = accountant.globalTileSets ledger := by
  have hlayers : accountant.globalLayers ledger' = accountant.globalLayers ledger := by
    simp only [Accountant.globalLayers, Ledger.layerNames, Ledger.allTileSets, h]
  exact ⟨hlayers, by rw [Accountant.globalTileSets, Accountant.globalTileSets, hlayers, tileSetsOf_congr h]⟩

/-- The quota of a layer can be enforced. -/
theorem UpToDate.enforceable_layer (h : depot.UpToDate (quotaUpkeep hfits accountant) name) (layer : String) :
    Enforceable (quotaUpkeep hfits accountant) name (fun accountant ledger => (accountant.excess ledger layer).getD .zero)
      (fun _ ledger => ledger.tileSetsOf layer) (depot.ledger.tileSetsOf layer) depot where
  fits := hfits
  plain := h.plain_tileSetsOf layer
  registered set hset := ((Ledger.mem_tileSetsOf h.holds.1.sound).mp hset).1
  filled hholds := hholds.2
  sets_eq _ hsame := by rw [tileSetsOf_congr hsame]
  covered {sizes ledger} hholds hsame hexcess := by
    rw [← tileSetsOf_congr hsame]
    refine exists_covered hholds.1 ?_
    obtain ⟨stored, hstored, hsane⟩ := h.accountant
    have hread : accountantCell.read depot = stored := by
      change depot.accountant.getD default = stored
      rw [hstored]
      rfl
    rw [hread, Accountant.excess, Accountant.layerQuota] at hexcess
    cases hquota : stored.quotas[layer]? with
    | none =>
      rw [hquota] at hexcess
      exact absurd hexcess (Int.lt_irrefl 0)
    | some quota =>
      obtain ⟨allowed, hallowed, hnonneg⟩ := (hsane.2.quotas hquota).allowed
      rw [hquota] at hexcess
      simp only [Option.map_some, Option.getD_some, LayerQuota.excess, LayerQuota.limit, hallowed, ByteSize.bytes_sub] at hexcess
      omega

/-- The global quota can be enforced. -/
theorem UpToDate.enforceable_global (h : depot.UpToDate (quotaUpkeep hfits accountant) name) :
    Enforceable (quotaUpkeep hfits accountant) name Accountant.globalExcess Accountant.globalTileSets
      ((accountantCell.read depot).globalTileSets depot.ledger) depot where
  fits := hfits
  plain := h.plain_globalTileSets _
  registered set hset := by
    obtain ⟨layer, -, hset⟩ := List.mem_flatMap.mp hset
    exact ((Ledger.mem_tileSetsOf h.holds.1.sound).mp hset).1
  filled hholds := hholds.2
  sets_eq _ hsame := (globalTileSets_congr hsame _).2
  covered {sizes ledger} hholds hsame hexcess := by
    obtain ⟨stored, hstored, hsane⟩ := h.accountant
    have hread : accountantCell.read depot = stored := by
      change depot.accountant.getD default = stored
      rw [hstored]
      rfl
    rw [← (globalTileSets_congr hsame _).2]
    rw [Accountant.globalExcess, ByteSize.bytes_sub, Ledger.bytes_total, List.map_map, hread] at hexcess
    have hnonneg := hsane.2.globalQuota
    obtain ⟨layer, hlayer, hused⟩ := List.exists_lt_of_sum_lt (fun _ => 0) (ByteSize.bytes ∘ ledger.usedByLayer)
      (l := stored.globalLayers ledger) (by rw [List.map_const', List.sum_replicate, nsmul_zero]; omega)
    obtain ⟨key, hkey, hset, hcovers⟩ := exists_covered hholds.1 hused
    refine ⟨key, hkey, List.mem_flatMap.mpr ⟨layer, ?_, hset⟩, hcovers⟩
    rwa [hread]

/-! ## Quotas enforced -/

/-- What the enforcement of a quota comes to: sweep after sweep that each empty a page, until nothing is in excess. No page
is emptied twice, and the tiles that are spared stay what they are. -/
structure Enforced (table : CoverageTable) (name : String) (enforcer : Enforcer Depot) (policy : Policy)
    (excess : Accountant → Ledger → ByteSize) (setsOf : Accountant → Ledger → List TileSet) (spared : TileKey → Prop)
    (depot : Depot) (swept : Swept) (depot' : Depot) : Prop where
  rounds : enforcer.Rounds policy excess setsOf .nothing depot swept depot'
  settled : (excess (accountantCell.read depot') depot'.ledger).bytes ≤ 0
  pages : ∃ pages : List Page, pages.length = swept.pages ∧ (pages.map Page.key).Nodup ∧ ∃ ranges,
    depot'.truncated = depot.truncated ++ ranges ∧
    List.Forall₂ (RangeOf table (setsOf (accountantCell.read depot) depot.ledger)) pages ranges
  kept : ∀ key, spared key → (depot'.store name).tiles[key]? = (depot.store name).tiles[key]?

/-- Something that can be enforced is. -/
theorem UpToDate.enforced (h : depot.UpToDate upkeep name) (hcalm : conditions.Calm) (hcancelled : depot.cancelled = false)
    (htarget : Enforceable upkeep name excess setsOf (setsOf (accountantCell.read depot) depot.ledger) depot)
    (policy : Policy) (spared : TileKey → Prop)
    (hspared : ∀ key, spared key → key.tileSet ∉ setsOf (accountantCell.read depot) depot.ledger) :
    ∃ swept depot', (((DepotPlan.single name conditions).enforcer cancelledCell).sweepAll policy excess setsOf).onState depot =
        (.ok swept, depot') ∧
      Enforced table name ((DepotPlan.single name conditions).enforcer cancelledCell) policy excess setsOf spared depot swept
        depot' := by
  obtain ⟨swept, pages, depot', hrun, hrounds, hemptying, hpages⟩ := h.sweepAll hcalm hcancelled htarget policy
  rw [DepotPlan.enforcerBy_record] at hrun hrounds
  refine ⟨swept, depot', hrun, hrounds, hrounds.settled_after, ⟨pages, hpages.symm, hemptying.nodup, hemptying.ranges⟩, ?_⟩
  exact fun key hkey => hemptying.others key (hspared key hkey)

/-- Whatever has been asked of a depot that started empty with its accountant listening, with pages that words have room for, valid
settings and quotas that are not negative, as long as nothing goes wrong with the sweeps:
1. The quota of a layer is enforced, and the tiles of other layers stay.
2. The global quota is enforced, and the tiles of layers with a quota of their own stay. -/
theorem quotas_enforced (hfits : table.Fits) (name : String) (clock : Clock) {settings : Settings} {policies : PolicyTable}
    {accountant : Accountant} (hsettings : Accountant.ofSettings settings policies = .ok accountant)
    (hglobal : 0 ≤ settings.globalQuota.bytes)
    (hlayers : ∀ quota ∈ settings.layerQuotas, ∀ allowed, quota.allowed = some allowed → 0 ≤ allowed.bytes)
    (requests : List Request) (hrequests : ∀ request ∈ requests, request.Admissible table ∧ request ≠ .call .clear)
    (conditions : Conditions) (hcalm : conditions.Calm) :
    let plan := DepotPlan.single name conditions
    let depot := ((start name clock table accountant).serve name requests).nextStep conditions.cancelled
    (∀ layer : String, ((accountantCell.read depot).allowed layer).isSome = true →
      ∃ policy swept depot', (accountantCell.read depot).policyFor layer = .ok policy ∧
        (plan.enforce layer).onState depot = (.ok swept, depot') ∧
        Enforced table name (plan.enforcer cancelledCell) policy
          (fun accountant ledger => (accountant.excess ledger layer).getD .zero) (fun _ ledger => ledger.tileSetsOf layer)
          (fun key => key.layer ≠ layer) depot swept depot') ∧
    ∃ policy swept depot', (accountantCell.read depot).globalPolicy = .ok policy ∧
      plan.enforceGlobal.onState depot = (.ok swept, depot') ∧
      Enforced table name (plan.enforcer cancelledCell) policy Accountant.globalExcess Accountant.globalTileSets
        (fun key => (accountantCell.read depot).quotas.contains key.layer = true) depot swept depot' := by
  intro plan depot
  have hstart := upToDate_start (quotaUpkeep hfits accountant) name clock
    ⟨rfl, Accountant.sane_ofSettings hsettings hglobal hlayers⟩ ⟨Tallied.empty table accountant.rounded, Filled.empty table⟩
  obtain ⟨-, hserved⟩ := hstart.serve (Upkeep.blind_record _) requests (fun request hmem => (hrequests request hmem).1)
    fun hclear => absurd rfl (hrequests _ hclear).2
  have hdepot : depot.UpToDate (quotaUpkeep hfits accountant) name := hserved.nextStep conditions.cancelled
  have hcancelled : depot.cancelled = false := hcalm.cancelled
  have hsane : (accountantCell.read depot).Sane := by
    obtain ⟨stored, hstored, hsane⟩ := hdepot.accountant
    change (depot.accountant.getD default).Sane
    rw [hstored]
    exact hsane.2
  refine ⟨fun layer hallowed => ?_, ?_⟩
  · obtain ⟨policy, hpolicy⟩ := hsane.policyFor layer
    obtain ⟨swept, depot', hrun, henforced⟩ := hdepot.enforced hcalm hcancelled (hdepot.enforceable_layer layer) policy
      (fun key => key.layer ≠ layer)
      fun key hkey hset => hkey ((Ledger.mem_tileSetsOf hdepot.holds.1.sound).mp hset).2
    have henforce := Enforcer.onState_enforce (plan.enforcer cancelledCell) depot hallowed hpolicy
    exact ⟨policy, swept, depot', hpolicy, henforce.trans hrun, henforced⟩
  · obtain ⟨policy, hpolicy⟩ := hsane.globalPolicy
    obtain ⟨swept, depot', hrun, henforced⟩ := hdepot.enforced hcalm hcancelled hdepot.enforceable_global policy
      (fun key => (accountantCell.read depot).quotas.contains key.layer = true) fun key hkey hset => by
        obtain ⟨layer, hlayer, hset⟩ := List.mem_flatMap.mp hset
        obtain rfl := ((Ledger.mem_tileSetsOf hdepot.holds.1.sound).mp hset).2
        have hfree := (List.mem_filter.mp hlayer).2
        change (!(accountantCell.read depot).quotas.contains key.layer) = true at hfree
        rw [hkey] at hfree
        cases hfree
    have henforce := Enforcer.onState_enforceGlobal (plan.enforcer cancelledCell) depot hpolicy
    exact ⟨policy, swept, depot', hpolicy, henforce.trans hrun, henforced⟩

/-- A layer with two tiles and a quota of less than a block is swept until it is within its quota, and another layer keeps its
tile. -/
theorem quota_enforced_beside_layer :
    let depot := ((start "tiles" (.atMinutes 5) Sample.table (Sample.accountant "roads" 100)).serve "tiles"
      [.call (.put (Sample.tile "roads" 1 2 5)), .call (.put (Sample.tile "roads" 4 2 5)),
        .call (.put (Sample.tile "streets" 1 2 5))]).nextStep false
    let excess (depot : Depot) : ByteSize := ((accountantCell.read depot).excess depot.ledger "roads").getD .zero
    (excess depot).bytes = 8092 ∧
      ∃ swept depot', ((DepotPlan.single "tiles" .calm).enforce "roads").onState depot = (.ok swept, depot') ∧
        (excess depot').bytes ≤ 0 ∧ (Sample.tile "streets" 1 2 5).key ∈ (depot'.store "tiles").tiles := by
  intro depot excess
  have henforced := @quotas_enforced Sample.table Sample.fits_table "tiles" (.atMinutes 5) _ _ _
    (Sample.ofSettings_settings "roads" 100) (by decide +kernel) (fun quota hquota allowed hallowed => by
      rw [List.mem_singleton.mp hquota] at hallowed
      obtain rfl := Option.some.inj hallowed
      decide)
    [.call (.put (Sample.tile "roads" 1 2 5)), .call (.put (Sample.tile "roads" 4 2 5)),
      .call (.put (Sample.tile "streets" 1 2 5))]
    (fun request hrequest => by
      simp only [List.mem_cons, List.not_mem_nil, or_false] at hrequest
      rcases hrequest with rfl | rfl | rfl
      all_goals exact ⟨⟨by decide, by decide, by decide⟩, fun h => by cases h⟩) .calm ⟨rfl, rfl, rfl, rfl⟩
  obtain ⟨policy, swept, depot', -, hrun, hlayer⟩ := henforced.1 "roads" (by decide +kernel)
  refine ⟨by decide +kernel, swept, depot', hrun, hlayer.settled, ?_⟩
  have hstored : (Sample.tile "streets" 1 2 5).key ∈ (depot.store "tiles").tiles := by decide +kernel
  obtain ⟨payload, hpayload⟩ := Table.mem_iff_exists.mp hstored
  refine Table.mem_iff_exists.mpr ⟨payload, ?_⟩
  rw [hlayer.kept _ (by decide)]
  exact hpayload

end Depot

namespace Sample

/-- What the lanes use beyond their quota. -/
def lanesExcess (accountant : Accountant) (ledger : Ledger) : ByteSize := (accountant.excess ledger "lanes").getD .zero

/-- The depot of the lanes when enforcement begins. -/
def lanesAsked : Depot := farDepot.nextStep false

/-- The candidates among the pages of the lanes, and the depot once they have been looked for. -/
def lookAtLanes (depot : Depot) : Except Error (List PageEntry) × Depot :=
  (Depot.booksCell.run (Sweeper.candidates [lanes])).onState depot

/-- What sweeps the lanes. -/
def laneEnforcer : Enforcer Depot := (DepotPlan.single "tiles" .calm).enforcer Depot.cancelledCell

/-- The candidates swept through as they come, once they have been counted. -/
def sweepLanes : Except Error Swept × Depot :=
  let (entries, depot) := lookAtLanes (lookAtLanes lanesAsked).2
  (laneEnforcer.sweeper.sweepFrom (.ofList [(lanes.id, lanes)]) (.ofBytes 3996) (entries.toOption.getD []) ∅ .nothing).onState
    depot

/-- The quota of the lanes enforced from the second sweep on. -/
def settleLanes : Except Error Swept × Depot :=
  (laneEnforcer.sweepUntil .leastRecent lanesExcess (fun _ ledger => ledger.tileSetsOf "lanes")
    ((lookAtLanes lanesAsked).1.toOption.getD []).length (Swept.nothing.merge (sweepLanes.1.toOption.getD default))).onState
    sweepLanes.2

/-- The quota of the lanes enforced, with a first sweep that finds its candidates in order. -/
theorem onState_enforce_lanes : ((DepotPlan.single "tiles" .calm).enforce "lanes").onState lanesAsked = settleLanes := by
  have hlook (depot : Depot) (h : (lookAtLanes depot).1.isOk = true) :
      lookAtLanes depot = (.ok ((lookAtLanes depot).1.toOption.getD []), (lookAtLanes depot).2) := Run.onState_of_isOk h
  have hsets : lanesAsked.ledger.tileSetsOf "lanes" = [lanes] := by decide +kernel
  have hpositive : 0 < (lanesExcess (Depot.accountantCell.read lanesAsked) lanesAsked.ledger).bytes := by decide +kernel
  have hagain : (lookAtLanes lanesAsked).2.ledger.tileSetsOf "lanes" = [lanes] := by decide +kernel
  have hexcess : lanesExcess (Depot.accountantCell.read (lookAtLanes lanesAsked).2) (lookAtLanes lanesAsked).2.ledger =
      .ofBytes 3996 := by decide +kernel
  have hordered : ((lookAtLanes (lookAtLanes lanesAsked).2).1.toOption.getD []).IsChain fun a b =>
      Policy.leastRecent.order a b = .lt := by decide +kernel
  have hswept : sweepLanes.1.isOk = true ∧ (sweepLanes.1.toOption.getD default).pages ≠ 0 := by decide +kernel
  have hallowed : ((Depot.accountantCell.read lanesAsked).allowed "lanes").isSome = true := by decide +kernel
  have hpolicy : (Depot.accountantCell.read lanesAsked).policyFor "lanes" = .ok .leastRecent := rfl
  refine (Enforcer.onState_enforce laneEnforcer lanesAsked hallowed hpolicy).trans ?_
  exact Enforcer.onState_sweepAll_of_isChain hsets hpositive (hlook lanesAsked (by decide +kernel)) hagain hexcess (by decide)
    (hlook (lookAtLanes lanesAsked).2 (by decide +kernel)) hordered (Run.onState_of_isOk hswept.1) hswept.2

end Sample

namespace Depot

/-- Three ways to a layer that uses more than its quota when all its pages have been emptied: another layer, which covers more,
was renamed to it and took its usage along; or the store was cleared, of which the accountant hears nothing; or the last page
reaches beyond the largest word, so that its rectangle wraps around and nothing is deleted for it. -/
theorem quota_exceeded_with_pages_emptied :
    let depot := start "tiles" (.atMinutes 5) Sample.unequalTable (Sample.accountant "lanes" 100)
    let renamed := depot.serve "tiles" [.call (.put (Sample.tile "streets" 30 0 5)), .call (.rename "streets" "lanes")]
    let cleared := depot.serve "tiles" [.call (.put (Sample.tile "lanes" 0 0 5)), .call .clear]
    let enforced (depot : Depot) : Option (Nat × Int) :=
      let run := ((DepotPlan.single "tiles" .calm).enforce "lanes").onState (depot.nextStep false)
      run.1.toOption.bind fun swept =>
        ((accountantCell.read run.2).excess run.2.ledger "lanes").map fun excess => (swept.pages, excess.bytes)
    enforced renamed = some (1, 3996) ∧ enforced cleared = some (1, 3996) ∧ enforced Sample.farDepot = some (35, 3996) := by
  refine ⟨by decide +kernel, by decide +kernel, ?_⟩
  have hsettled : (Sample.settleLanes.1.toOption.bind fun swept =>
      ((accountantCell.read Sample.settleLanes.2).excess Sample.settleLanes.2.ledger "lanes").map fun excess =>
        (swept.pages, excess.bytes)) = some (35, 3996) := by decide +kernel
  rw [← Sample.onState_enforce_lanes, Sample.lanesAsked] at hsettled
  exact hsettled

end Depot

end TileDepot
