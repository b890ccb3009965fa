import TileDepot.Proofs.Cache.Alike
import TileDepot.Proofs.Store.Transparency

/-!
# Locks beside a cache

A reader that finds nothing in the cache looks a second time under the lock of the tile. When nobody else has cached it
meanwhile, the second look makes no difference to any answer, to what is cached or to what goes first from the cache; but it
is counted. Two caches that served the same calls, one with locks beside it and one without, hold the same tiles, used in the
same order, and their reports differ in the misses.
-/

namespace TileDepot

/-- A call that asks for a tile. -/
def StoreCall.isGet : StoreCall → Bool
  | .get _ => true
  | _ => false

/-! ## Runs in step -/

namespace Run

variable {σ α β : Type}

/-- Two runs from states that are related: they have the same result, and leave states that are related. -/
def InStep (before after : σ → σ → Prop) (run run' : Run σ α) : Prop :=
  ∀ state state', before state state' →
    (run'.onState state').1 = (run.onState state).1 ∧ after (run.onState state).2 (run'.onState state').2

variable {R : σ → σ → Prop}

theorem InStep.result (value : Except Error α) : InStep R R (Run.result value) (Run.result value) :=
  fun _ _ h => ⟨rfl, h⟩

/-- Runs in step stay so with what comes next. -/
theorem InStep.bind {run run' : Run σ α} {next next' : α → Run σ β} (h : InStep R R run run')
    (hnext : ∀ value, InStep R R (next value) (next' value)) : InStep R R (run >>= next) (run' >>= next') := by
  intro state state' hstate
  obtain ⟨hresult, hafter⟩ := h state state' hstate
  rw [onState_bind, onState_bind]
  rcases hrun : run.onState state with ⟨error | value, last⟩
  all_goals
    rcases hrun' : run'.onState state' with ⟨error' | value', last'⟩
    all_goals
      rw [hrun, hrun'] at hresult hafter
      cases hresult
  · exact ⟨rfl, hafter⟩
  · exact hnext value last last' hafter

/-- Attempts at runs in step are in step. -/
theorem InStep.attempt {run run' : Run σ α} (h : InStep R R run run') : InStep R R (Run.attempt run) (Run.attempt run') := by
  intro state state' hstate
  obtain ⟨hresult, hafter⟩ := h state state' hstate
  rw [onState_attempt, onState_attempt, hresult]
  exact ⟨rfl, hafter⟩

end Run

namespace CacheAside

open Resident (alone unheard)

/-! ## Calls -/

/-- A cache with a store behind it, and another with locks beside it and the same store behind it, after the same calls. -/
structure Beside (gets : Nat) (plain locked : TileCache × Resident) : Prop where
  store : locked.2 = plain.2
  cache : TileCache.MissesTwice gets plain.1 locked.1

variable {gets : Nat}

/-- Two caches side by side leave their stores in step. -/
theorem inStep_store (call : StoreCall) : Run.InStep (Beside gets) (Beside gets)
    (Resident.tileStore .second unheard call) (Resident.tileStore .second unheard call) := by
  rintro ⟨cache, store⟩ ⟨locked, store'⟩ ⟨hstore, hcache⟩
  obtain rfl : store' = store := hstore
  rw [Resident.onState_second, Resident.onState_second]
  exact ⟨rfl, rfl, hcache⟩

theorem onState_change_first (change : TileCache → TileCache) (cache : TileCache) (store : Resident) :
    (Cell.first.change change).onState (cache, store) = (.ok (), change cache, store) := rfl

/-- They stay side by side when both drop the same entries. -/
theorem inStep_drop {drop : TileCache → TileCache} (hdrop : TileCache.Drops drop) :
    Run.InStep (Beside gets) (Beside gets) (Cell.first.change drop) (Cell.first.change drop) :=
  fun _ _ h => ⟨rfl, h.store, h.cache.drop hdrop⟩

/-- They stay side by side with calls that drop entries. -/
theorem inStep_dropping {drop : TileCache → TileCache} (hdrop : TileCache.Drops drop) (call : StoreCall) :
    Run.InStep (Beside gets) (Beside gets) (dropping .first drop (Resident.tileStore .second unheard call))
      (dropping .first drop (Resident.tileStore .second unheard call)) :=
  (inStep_drop hdrop).bind fun _ => (inStep_store call).attempt.bind fun _ => (inStep_drop hdrop).bind fun _ => .result _

/-- After a miss both load the tile. -/
theorem inStep_load (request : Tile) :
    Run.InStep (fun state state' => Beside gets state state' ∧ state.1.counters.misses ≠ 0) (Beside gets)
      (load .first (Resident.tileStore .second unheard) request) (load .first (Resident.tileStore .second unheard) request) := by
  rintro ⟨cache, store⟩ ⟨locked, store'⟩ ⟨⟨hstore, hcache⟩, hmisses⟩
  obtain rfl : store' = store := hstore
  rw [load, Run.onState_bind_ok (onState_read request cache store'), Run.onState_bind_ok (onState_read request locked store')]
  cases store'.tiles[request.key]? with
  | none => exact ⟨rfl, rfl, hcache⟩
  | some payload =>
    simp only [Run.onState_bind_ok (onState_change_first _ _ _), Run.onState_pure]
    exact ⟨trivial, rfl, hcache.put hmisses request.key payload⟩

/-- Under its lock a tile that is not cached is looked up, and then read from the store. -/
theorem onState_loadLocked {plan : LockPlan} (hplan : plan.refused = []) {request : Tile} {cache : TileCache} (store : Resident)
    (hkey : cache.payload? request.key = none) :
    (loadLocked .first (plan.locks DepotPlan.unheld) (Resident.tileStore .second unheard) request).onState (cache, store) =
      (load .first (Resident.tileStore .second unheard) request).onState ((cache.get request.key).2, store) := by
  have hlookUp := onState_lookUp cache store request.key
  rw [hkey] at hlookUp
  rw [loadLocked, Run.onState_bind_ok (Run.onState_attempt _ _), LockPlan.onState_acquire_free hplan]
  dsimp only
  rw [Run.onState_bind_ok (Run.onState_attempt _ _), Run.onState_bind_ok (Run.onState_ignoringFailure _ _),
    plan.onState_release, lookUpOrLoad, Run.onState_bind_ok hlookUp]
  rfl

/-- For one get more, the locked cache misses twice as often as the other one. -/
theorem inStep_get {plan : LockPlan} (hplan : plan.refused = []) (request : Tile) :
    Run.InStep (Beside gets) (Beside (gets + 1))
      (get .first none (Resident.tileStore .second unheard) request)
      (get .first (some (plan.locks DepotPlan.unheld)) (Resident.tileStore .second unheard) request) := by
  rintro ⟨cache, store⟩ ⟨locked, store'⟩ ⟨hstore, hcache⟩
  obtain rfl : store' = store := hstore
  have hlookUp := onState_lookUp cache store' request.key
  have hlookUp' := onState_lookUp locked store' request.key
  cases hkey : cache.payload? request.key with
  | some payload =>
    rw [hcache.alike.payload, hkey] at hlookUp'
    rw [hkey] at hlookUp
    rw [get, get, Run.onState_bind_ok hlookUp, Run.onState_bind_ok hlookUp']
    exact ⟨rfl, rfl, hcache.hit hkey⟩
  | none =>
    have hkey' : locked.payload? request.key = none := (hcache.alike.payload request.key).trans hkey
    rw [hkey'] at hlookUp'
    rw [hkey] at hlookUp
    have hagain : (locked.get request.key).2.payload? request.key = none := (locked.payload?_get _ _).trans hkey'
    rw [get, get, Run.onState_bind_ok hlookUp, Run.onState_bind_ok hlookUp']
    dsimp only
    rw [onState_loadLocked hplan store' hagain]
    have hmissed : (cache.get request.key).2.counters.misses ≠ 0 := by
      simp [TileCache.get_of_none (Option.map_eq_none_iff.mp hkey), CacheCounters.miss]
    exact inStep_load request (_, store') (_, store') ⟨⟨rfl, hcache.miss hkey⟩, hmissed⟩

/-- Every call goes the same way with locks and without. -/
theorem inStep {plan : LockPlan} (hplan : plan.refused = []) (call : StoreCall) :
    Run.InStep (Beside gets) (Beside (gets + if call.isGet then 1 else 0))
      (tileStore .first none (Resident.tileStore .second unheard) call)
      (tileStore .first (some (plan.locks DepotPlan.unheld)) (Resident.tileStore .second unheard) call) := by
  cases call with
  | get request => exact inStep_get hplan request
  | put tile => exact (inStep_store (.put tile)).bind fun _ => inStep_drop (TileCache.drops_remove tile.key)
  | delete key => exact inStep_dropping (TileCache.drops_remove key) _
  | deleteRange | deleteLayer | deleteGridset | deleteParameters | rename =>
    exact inStep_dropping (TileCache.drops_removeWhere _) _
  | clear => exact inStep_drop TileCache.drops_clear
  | layerExists | parametersOf | metadata | putMetadata | addListener | removeListener => exact inStep_store _

/-- Many calls go the same way. -/
theorem serve_inStep {plan : LockPlan} (hplan : plan.refused = []) (calls : List StoreCall)
    {state state' : TileCache × Resident} (h : Beside gets state state') :
    let plain := (tileStore .first none (Resident.tileStore .second unheard)).serve calls state
    let locked := (tileStore .first (some (plan.locks DepotPlan.unheld)) (Resident.tileStore .second unheard)).serve calls state'
    locked.1 = plain.1 ∧ Beside (gets + calls.countP StoreCall.isGet) plain.2 locked.2 := by
  induction calls generalizing gets state state' with
  | nil => exact ⟨rfl, h⟩
  | cons call calls ih =>
    obtain ⟨hanswer, hafter⟩ := inStep hplan call state state' h
    obtain ⟨houtcomes, hlast⟩ := ih hafter
    rw [TileStore.serve_cons, TileStore.serve_cons, List.countP_cons, hanswer, houtcomes]
    rw [Nat.add_assoc, Nat.add_comm (if call.isGet then 1 else 0)] at hlast
    exact ⟨rfl, hlast⟩

end CacheAside

namespace Depot

/-- A resident store with a cache beside it. -/
def cachedStore (name backing : String) (settings : CacheSettings) (locks : Option LockPlan) : TileStore Depot :=
  (StoreTree.cached name settings locks (.resident backing)).tileStore .whole DepotPlan.unheld

/-- The report of a cache. -/
def report (name : String) (depot : Depot) : CacheReport := ((cacheCell name).read depot).report

/-- What is reported of two caches, of which the second has counted every miss twice. -/
theorem reports_beside {name backing : String} {gets : Nat} {plain locked : Depot}
    (h : CacheAside.Beside gets (cacheView name backing plain) (cacheView name backing locked)) :
    (plain.report name).counters.lookUps = gets ∧
      locked.report name = { plain.report name with
        counters := { (plain.report name).counters with misses := 2 * (plain.report name).counters.misses } } ∧
      (locked.report name).counters.lookUps = gets + (plain.report name).counters.misses ∧
      (locked.report name = plain.report name ↔ gets = 0) := by
  have hreport : locked.report name = { plain.report name with
      counters := { (plain.report name).counters with misses := 2 * (plain.report name).counters.misses } } :=
    h.cache.report
  have hlookUps : (plain.report name).counters.lookUps = gets := h.cache.lookUps
  have hunused : (plain.report name).counters.misses = 0 → gets = 0 := fun hmisses => (h.cache.unused hmisses).1
  generalize plain.report name = report at *
  rw [hreport]
  simp only [CacheCounters.lookUps] at *
  refine ⟨hlookUps, trivial, by omega, fun heq => ?_, fun hgets => ?_⟩
  · have hmisses : 2 * report.counters.misses = report.counters.misses :=
      congrArg (fun report => report.counters.misses) heq
    exact hunused (by omega)
  · have hmisses : report.counters.misses = 0 := by omega
    rw [hmisses]
    change { report with counters := { report.counters with misses := 0 } } = report
    rw [← hmisses]

/-- A cache with locks beside it, none of which is refused, gives the outcomes that it gives without, holds the same payloads
and leaves the same in the store behind it. Without locks every call for a tile is counted as one hit or one miss. With locks
every miss is counted twice, and nothing else is counted otherwise; so the reports agree only as long as no tile is asked for. -/
theorem locked_cache_misses_twice (name backing : String) (settings : CacheSettings) {plan : LockPlan}
    (hplan : plan.refused = []) (depot : Depot) (hempty : (cacheCell name).read depot = TileCache.empty settings)
    (calls : List StoreCall) :
    let plain := (cachedStore name backing settings none).serve calls depot
    let locked := (cachedStore name backing settings (some plan)).serve calls depot
    let gets := calls.countP StoreCall.isGet
    locked.1 = plain.1 ∧ (residentCell backing).read locked.2 = (residentCell backing).read plain.2 ∧
      (∀ key : TileKey, ((cacheCell name).read locked.2).payload? key = ((cacheCell name).read plain.2).payload? key) ∧
      (plain.2.report name).counters.lookUps = gets ∧
      locked.2.report name = { plain.2.report name with
        counters := { (plain.2.report name).counters with misses := 2 * (plain.2.report name).counters.misses } } ∧
      (locked.2.report name).counters.lookUps = gets + (plain.2.report name).counters.misses ∧
      (locked.2.report name = plain.2.report name ↔ gets = 0) := by
  intro plain locked gets
  have hbefore : CacheAside.Beside 0 (cacheView name backing depot) (cacheView name backing depot) := by
    refine ⟨rfl, ?_⟩
    rw [cacheView, hempty]
    exact TileCache.missesTwice_empty settings
  obtain ⟨houtcomes, hbeside⟩ := CacheAside.serve_inStep hplan calls hbefore
  have hplain := (cached_projects name backing settings none).serve calls depot
  have hlocked := (cached_projects name backing settings (some plan)).serve calls depot
  rw [Option.map_none] at hplain
  rw [Option.map_some] at hlocked
  rw [hplain, hlocked] at houtcomes hbeside
  rw [Nat.zero_add] at hbeside
  exact ⟨houtcomes, hbeside.store, hbeside.cache.alike.payload, reports_beside hbeside⟩

/-- A tile is put and asked for twice, with locks whose return is reported as failed. -/
theorem locked_cache_misses_twice_troubled :
    let plan : LockPlan := ⟨"locks", [], ["*"]⟩
    let depot := DepotPlan.opened ⟨.cached "cache" Settings.defaultCache plan (.resident "tiles"), none, ⟨false, none, []⟩,
      .reliable⟩ (.atMinutes 5) Sample.table none
    let calls := [.put (Sample.tile "roads" 1 2 5), .get (Sample.request "roads" 1 2), .get (Sample.request "roads" 1 2)]
    let plain := (cachedStore "cache" "tiles" Settings.defaultCache none).serve calls depot
    let locked := (cachedStore "cache" "tiles" Settings.defaultCache (some plan)).serve calls depot
    plan.refused = [] ∧ (cacheCell "cache").read depot = TileCache.empty Settings.defaultCache ∧ locked.1 = plain.1 ∧
      (plain.2.report "cache").counters.lookUps = 2 ∧ locked.2.report "cache" ≠ plain.2.report "cache" := by
  intro plan depot calls plain locked
  have hplan : plan.refused = [] := rfl
  have hempty : (cacheCell "cache").read depot = TileCache.empty Settings.defaultCache := rfl
  have hgets : calls.countP StoreCall.isGet = 2 := rfl
  obtain ⟨houtcomes, -, -, hlookUps, -, -, hiff⟩ :=
    locked_cache_misses_twice "cache" "tiles" Settings.defaultCache hplan depot hempty calls
  rw [hgets] at hlookUps hiff
  exact ⟨hplan, hempty, houtcomes, hlookUps, mt hiff.mp (by decide)⟩

/-- One call for a tile, which is not cached, is reported as one miss without locks, and as two with them. -/
theorem miss_counted_twice :
    let depot := DepotPlan.opened ⟨.cached "cache" Settings.defaultCache none (.resident "tiles"), none, ⟨false, none, []⟩,
      .reliable⟩ (.atMinutes 5) Sample.table none
    let calls := [.put (Sample.tile "roads" 1 2 5), .get (Sample.request "roads" 1 2)]
    let counters (locks : Option LockPlan) : CacheCounters :=
      (((cachedStore "cache" "tiles" Settings.defaultCache locks).serve calls depot).2.report "cache").counters
    counters none = { misses := 1, insertions := 1 } ∧ counters (some .reliable) = { misses := 2, insertions := 1 } := by
  decide +kernel

end Depot

end TileDepot
