import TileDepot.Depot.Stores
import TileDepot.Proofs.Run

/-!
# Runs seen through a view

Of a large state only a part matters to most runs. A view says which part; a run projects to one on the view when, seen
through the view, it comes to what that one comes to. Runs that project can be put together, and so can stores. A store that
serves many calls gives the same outcomes as the store it projects to.
-/

namespace TileDepot

variable {σ τ α β : Type}

/-! ## Runs -/

/-- A cell of a state that is a cell of what a view keeps of it. -/
structure Cell.Seen (view : σ → τ) (cell : Cell σ α) (part : Cell τ α) : Prop where
  read : ∀ state, part.read (view state) = cell.read state
  write : ∀ value state, part.write value (view state) = view (cell.write value state)

namespace Run

variable {view : σ → τ}

/-- A run that comes, seen through a view, to what another one comes to on the view. -/
def Projects (view : σ → τ) (run : Run σ α) (part : Run τ α) : Prop :=
  ∀ state, part.onState (view state) = ((run.onState state).1, view (run.onState state).2)

theorem Projects.pure (value : α) : Projects view (Pure.pure value) (Pure.pure value) := fun _ => rfl

theorem Projects.throw (error : Error) : Projects view (MonadExcept.throw error : Run σ α) (MonadExcept.throw error) :=
  fun _ => rfl

theorem Projects.result (value : Except Error α) : Projects view (Run.result value) (Run.result value) := fun _ => rfl

/-- Runs and what comes next are projected together. -/
theorem Projects.bind {run : Run σ α} {part : Run τ α} {next : α → Run σ β} {partNext : α → Run τ β}
    (h : Projects view run part) (hnext : ∀ value, Projects view (next value) (partNext value)) :
    Projects view (run >>= next) (part >>= partNext) := by
  intro state
  rw [onState_bind, onState_bind, h state]
  rcases run.onState state with ⟨error | value, after⟩
  · rfl
  · exact hnext value after

/-- An attempt at a run is projected as one. -/
theorem Projects.attempt {run : Run σ α} {part : Run τ α} (h : Projects view run part) :
    Projects view (Run.attempt run) (Run.attempt part) := by
  intro state
  rw [onState_attempt, onState_attempt, h state]

/-- A run whose failure is ignored is projected as one. -/
theorem Projects.ignoringFailure {run : Run σ α} {part : Run τ α} (h : Projects view run part) :
    Projects view (Run.ignoringFailure run) (Run.ignoringFailure part) :=
  h.attempt.bind fun _ => .pure ()

/-- A change that the view does not see. -/
theorem Projects.change_unseen {change : σ → σ} (h : ∀ state, view (change state) = view state) :
    Projects view (Run.change change) (Run.change id) :=
  fun state => by rw [onState_change, onState_change, id, h state]

/-- A run on a cell that the view keeps. -/
theorem Projects.cell {cell : Cell σ α} {part : Cell τ α} (h : cell.Seen view part) (run : Run α β) :
    Projects view (cell.run run) (part.run run) := by
  intro state
  rw [onState_cell, onState_cell, h.read, h.write]

theorem Projects.cell_step {cell : Cell σ α} {part : Cell τ α} (h : cell.Seen view part) (step : α → β × α) :
    Projects view (cell.step step) (part.step step) :=
  .cell h _

theorem Projects.cell_change {cell : Cell σ α} {part : Cell τ α} (h : cell.Seen view part) (change : α → α) :
    Projects view (cell.change change) (part.change change) :=
  .cell h _

end Run

/-! ## Stores -/

/-- A store that projects to another in every call. -/
def TileStore.Projects (view : σ → τ) (store : TileStore σ) (part : TileStore τ) : Prop :=
  ∀ call, Run.Projects view (store call) (part call)

/-- Locks that project to others. -/
structure Locks.Projects (view : σ → τ) (locks : Locks σ) (part : Locks τ) : Prop where
  acquire : ∀ key, Run.Projects view (locks.acquire key) (part.acquire key)
  release : ∀ key, Run.Projects view (locks.release key) (part.release key)

variable {view : σ → τ}

/-- Locks at which nobody holds a call are the same on every state. -/
theorem LockPlan.locks_projects (plan : LockPlan) :
    (plan.locks DepotPlan.unheld).Projects view (plan.locks DepotPlan.unheld) := by
  refine ⟨fun key => ?_, fun key => ?_⟩
  · refine (Run.Projects.change_unseen fun _ => rfl).bind fun _ => ?_
    split
    · exact .throw _
    · exact .pure _
  · unfold LockPlan.locks
    dsimp only
    split
    · exact .throw _
    · exact .pure _

/-- What the listeners of a resident store make of events is not seen. -/
theorem Resident.tell_unseen {hear : Listener → Event → σ → σ}
    (hhear : ∀ listener event state, view (hear listener event state) = view state) (listeners : Roster Listener) :
    ∀ (events : List Event) (state : σ), view (tell hear listeners events state) = view state := by
  have hnotify : ∀ (members : List Listener) (event : Event) (state : σ),
      view (members.foldl (fun state member => hear member event state) state) = view state := by
    intro members event
    induction members with
    | nil => intro state; rfl
    | cons member members ih =>
      intro state
      rw [List.foldl_cons, ih, hhear]
  intro events
  induction events with
  | nil => intro state; rfl
  | cons event events ih =>
    intro state
    change view (tell hear listeners events (listeners.notify (hear · event) state)) = _
    rw [ih]
    exact hnotify listeners.members event state

/-- Nobody makes anything of an event. -/
def Resident.unheard (_ : Listener) (_ : Event) (state : σ) : σ := state

theorem Resident.tell_unheard (listeners : Roster Listener) (events : List Event) (state : σ) :
    tell unheard listeners events state = state := by
  have hunseen : ∀ (listener : Listener) (event : Event) (state : σ), id (unheard listener event state) = id state :=
    fun _ _ _ => rfl
  exact tell_unseen hunseen listeners events state

/-- A resident store that is a part of a view, where the view does not see what listeners do. -/
theorem Resident.tileStore_projects {cell : Cell σ Resident} {part : Cell τ Resident} (hcell : cell.Seen view part)
    {hear : Listener → Event → σ → σ} (hhear : ∀ listener event state, view (hear listener event state) = view state) :
    TileStore.Projects view (tileStore cell hear) (tileStore part unheard) := by
  intro call state
  unfold tileStore
  rw [Run.onState_ofState, Run.onState_ofState, hcell.read]
  cases (cell.read state).answer call with
  | error error => rfl
  | ok outcome =>
    obtain ⟨value, events, store⟩ := outcome
    dsimp only
    rw [tell_unheard, tell_unseen hhear, hcell.write]

/-- A tile that is loaded is projected on the part of the cache and the store. -/
theorem CacheAside.load_projects {cache : Cell σ TileCache} {part : Cell τ TileCache} (hcache : cache.Seen view part)
    {store : TileStore σ} {partStore : TileStore τ} (hstore : store.Projects view partStore) (request : Tile) :
    Run.Projects view (load cache store request) (load part partStore request) := by
  refine (hstore (.get request)).bind fun found => ?_
  cases found with
  | none => exact .pure _
  | some payload => exact (Run.Projects.cell_change hcache _).bind fun _ => .pure _

/-- A tile that is looked up, or else loaded, is projected likewise. -/
theorem CacheAside.lookUpOrLoad_projects {cache : Cell σ TileCache} {part : Cell τ TileCache} (hcache : cache.Seen view part)
    {store : TileStore σ} {partStore : TileStore τ} (hstore : store.Projects view partStore) (request : Tile) :
    Run.Projects view (lookUpOrLoad cache store request) (lookUpOrLoad part partStore request) := by
  refine (Run.Projects.cell_step hcache _).bind fun found => ?_
  cases found with
  | none => exact load_projects hcache hstore request
  | some payload => exact .pure _

/-- A call that drops entries is projected likewise. -/
theorem CacheAside.dropping_projects {cache : Cell σ TileCache} {part : Cell τ TileCache} (hcache : cache.Seen view part)
    (drop : TileCache → TileCache) {call : Run σ α} {partCall : Run τ α} (hcall : Run.Projects view call partCall) :
    Run.Projects view (dropping cache drop call) (dropping part drop partCall) :=
  (Run.Projects.cell_change hcache _).bind fun _ => hcall.attempt.bind fun _ =>
    (Run.Projects.cell_change hcache _).bind fun _ => .result _

/-- A store with a cache, where the cache, the store and the locks are parts of a view. -/
theorem CacheAside.tileStore_projects {cache : Cell σ TileCache} {part : Cell τ TileCache} (hcache : cache.Seen view part)
    {store : TileStore σ} {partStore : TileStore τ} (hstore : store.Projects view partStore) (locks : Option LockPlan) :
    TileStore.Projects view (tileStore cache (locks.map (·.locks DepotPlan.unheld)) store)
      (tileStore part (locks.map (·.locks DepotPlan.unheld)) partStore) := by
  intro call
  cases call with
  | get request =>
    refine (Run.Projects.cell_step hcache _).bind fun found => ?_
    cases found with
    | some payload => exact .pure _
    | none =>
      cases locks with
      | none => exact load_projects hcache hstore request
      | some plan =>
        refine (plan.locks_projects.acquire _).attempt.bind fun acquired => ?_
        cases acquired with
        | error error => exact load_projects hcache hstore request
        | ok _ =>
          refine (lookUpOrLoad_projects hcache hstore request).attempt.bind fun answer => ?_
          exact (plan.locks_projects.release _).ignoringFailure.bind fun _ => .result _
  | put tile => exact (hstore (.put tile)).bind fun _ => .cell_change hcache _
  | delete | deleteRange | deleteLayer | deleteGridset | deleteParameters | rename =>
    exact dropping_projects hcache _ (hstore _)
  | clear => exact .cell_change hcache _
  | layerExists | parametersOf | metadata | putMetadata | addListener | removeListener => exact hstore _

/-- A store of two tiers that are parts of a view. -/
theorem TwoTier.tileStore_projects {front backing : TileStore σ} {partFront partBacking : TileStore τ}
    (hfront : front.Projects view partFront) (hbacking : backing.Projects view partBacking) :
    TileStore.Projects view (tileStore front backing) (tileStore partFront partBacking) := by
  intro call
  cases call with
  | get request =>
    refine (hfront (.get request)).bind fun found => ?_
    cases found with
    | some payload => exact .pure _
    | none =>
      refine (hbacking (.get request)).bind fun found => ?_
      cases found with
      | none => exact .pure _
      | some payload => exact (hfront _).ignoringFailure.bind fun _ => .pure _
  | metadata layer key =>
    refine (hfront (.metadata layer key)).bind fun found => ?_
    cases found with
    | some value => exact .pure _
    | none =>
      refine (hbacking (.metadata layer key)).bind fun found => ?_
      cases found with
      | none => exact .pure _
      | some value => exact (hfront _).ignoringFailure.bind fun _ => .pure _
  | layerExists layer =>
    refine (hfront (.layerExists layer)).bind fun found => ?_
    cases found with
    | true => exact .pure _
    | false => exact hbacking (.layerExists layer)
  | delete | deleteRange | deleteLayer | deleteGridset | deleteParameters | rename =>
    exact (hfront _).bind fun _ => (hbacking _).bind fun _ => .pure _
  | put | putMetadata | clear => exact (hfront _).bind fun _ => hbacking _
  | parametersOf | addListener | removeListener => exact hbacking _

/-! ## Parts of a depot -/

namespace Depot

/-- No listener touches the stores. -/
theorem residents_hear (listener : Listener) (event : Event) (depot : Depot) :
    (hear listener event depot).residents = depot.residents := by
  cases listener with
  | scribe name => rfl
  | accountant =>
    unfold hear
    dsimp only
    split <;> rfl

/-- No listener touches the caches. -/
theorem caches_hear (listener : Listener) (event : Event) (depot : Depot) :
    (hear listener event depot).caches = depot.caches := by
  cases listener with
  | scribe name => rfl
  | accountant =>
    unfold hear
    dsimp only
    split <;> rfl

theorem read_cacheCell_write (name : String) (cache : TileCache) (depot : Depot) :
    (cacheCell name).read ((cacheCell name).write cache depot) = cache :=
  Std.ExtTreeMap.getD_insert_self

/-- A store that was put in its place is found there, and the others stay. -/
theorem read_residentCell_write (name other : String) (store : Resident) (depot : Depot) :
    (residentCell other).read ((residentCell name).write store depot) =
      if name = other then store else (residentCell other).read depot := by
  change (depot.residents.insert name store).getD other .empty = _
  rw [Std.ExtTreeMap.getD_insert]
  simp only [Std.LawfulEqCmp.compare_eq_iff_eq]
  rfl

/-- A cache of a depot and a resident store. -/
def cacheView (name backing : String) (depot : Depot) : TileCache × Resident :=
  ((cacheCell name).read depot, (residentCell backing).read depot)

/-- Two resident stores of a depot. -/
def tierView (front backing : String) (depot : Depot) : Resident × Resident :=
  ((residentCell front).read depot, (residentCell backing).read depot)

/-- Events do not change what is seen of a cache and of the store behind it. -/
theorem cacheView_hear (name backing : String) (listener : Listener) (event : Event) (depot : Depot) :
    cacheView name backing (hear listener event depot) = cacheView name backing depot := by
  simp only [cacheView, cacheCell, residentCell, caches_hear, residents_hear]

/-- Events do not change what is seen of two tiers. -/
theorem tierView_hear (front backing : String) (listener : Listener) (event : Event) (depot : Depot) :
    tierView front backing (hear listener event depot) = tierView front backing depot := by
  simp only [tierView, residentCell, residents_hear]

/-- A resident store of a depot, seen alone. -/
theorem resident_projects (name : String) : TileStore.Projects (residentCell name).read
    ((StoreTree.resident name).tileStore .whole DepotPlan.unheld) (Resident.tileStore .whole Resident.unheard) := by
  have hstore : Cell.Seen (residentCell name).read ((residentCell name).inside .whole) .whole :=
    ⟨fun _ => rfl, fun store depot => ((read_residentCell_write name name store depot).trans (if_pos rfl)).symm⟩
  exact Resident.tileStore_projects hstore fun listener event depot =>
    congrArg (·.getD name .empty) (residents_hear listener event depot)

/-- A cache of a depot, seen beside a resident store. -/
theorem seen_cache (name backing : String) : Cell.Seen (cacheView name backing) ((cacheCell name).inside .whole) .first :=
  ⟨fun _ => rfl, fun cache depot => Prod.ext (read_cacheCell_write name cache depot).symm rfl⟩

/-- A resident store of a depot, seen behind a cache. -/
theorem seen_backing (name backing : String) : TileStore.Projects (cacheView name backing)
    ((StoreTree.resident backing).tileStore .whole DepotPlan.unheld) (Resident.tileStore .second Resident.unheard) := by
  have hstore : Cell.Seen (cacheView name backing) ((residentCell backing).inside .whole) .second :=
    ⟨fun _ => rfl, fun store depot =>
      Prod.ext rfl ((read_residentCell_write backing backing store depot).trans (if_pos rfl)).symm⟩
  exact Resident.tileStore_projects hstore (cacheView_hear name backing)

/-- A resident store with a cache, seen alone. -/
theorem cached_projects (name backing : String) (settings : CacheSettings) (locks : Option LockPlan) :
    TileStore.Projects (cacheView name backing)
      ((StoreTree.cached name settings locks (.resident backing)).tileStore .whole DepotPlan.unheld)
      (CacheAside.tileStore .first (locks.map (·.locks DepotPlan.unheld)) (Resident.tileStore .second Resident.unheard)) :=
  CacheAside.tileStore_projects (seen_cache name backing) (seen_backing name backing) locks

/-- Two resident stores as tiers, seen alone. -/
theorem twoTier_projects (name : String) {front backing : String} (hne : front ≠ backing) :
    TileStore.Projects (tierView front backing)
      ((StoreTree.twoTier name (.resident front) (.resident backing)).tileStore .whole DepotPlan.unheld)
      (TwoTier.tileStore (Resident.tileStore .first Resident.unheard) (Resident.tileStore .second Resident.unheard)) := by
  have hfront : Cell.Seen (tierView front backing) ((residentCell front).inside .whole) .first :=
    ⟨fun _ => rfl, fun store depot =>
      Prod.ext ((read_residentCell_write front front store depot).trans (if_pos rfl)).symm
        ((read_residentCell_write front backing store depot).trans (if_neg hne)).symm⟩
  have hbacking : Cell.Seen (tierView front backing) ((residentCell backing).inside .whole) .second :=
    ⟨fun _ => rfl, fun store depot =>
      Prod.ext ((read_residentCell_write backing front store depot).trans (if_neg hne.symm)).symm
        ((read_residentCell_write backing backing store depot).trans (if_pos rfl)).symm⟩
  exact TwoTier.tileStore_projects (Resident.tileStore_projects hfront (tierView_hear front backing))
    (Resident.tileStore_projects hbacking (tierView_hear front backing))

end Depot

/-! ## Many calls -/

/-- The tile as a caller has it after a call for it: filled with what was found of it. -/
def StoreCall.filled : (call : StoreCall) → Except Error call.Answer → Option Tile
  | .get request, .ok (some payload) => some (request.fill payload)
  | .get request, _ => some request
  | _, _ => none

/-- What comes of a call: the answer, and the tile if one was asked for. -/
structure Outcome where
  call : StoreCall
  answer : Except Error call.Answer
  tile : Option Tile

/-- What comes of a call that is answered so. -/
def Outcome.of (call : StoreCall) (answer : Except Error call.Answer) : Outcome := ⟨call, answer, call.filled answer⟩

/-- What comes of some calls of a store, one after the other, and the state after them. -/
def TileStore.serve (store : TileStore σ) : List StoreCall → σ → List Outcome × σ
  | [], state => ([], state)
  | call :: calls, state =>
    let (answer, state) := (store call).onState state
    let (outcomes, state) := serve store calls state
    (.of call answer :: outcomes, state)

theorem TileStore.serve_cons (store : TileStore σ) (call : StoreCall) (calls : List StoreCall) (state : σ) :
    store.serve (call :: calls) state =
      (.of call ((store call).onState state).1 :: (store.serve calls ((store call).onState state).2).1,
        (store.serve calls ((store call).onState state).2).2) :=
  rfl

theorem TileStore.serve_append (store : TileStore σ) (calls calls' : List StoreCall) (state : σ) :
    (store.serve (calls ++ calls') state).2 = (store.serve calls' (store.serve calls state).2).2 := by
  induction calls generalizing state with
  | nil => rfl
  | cons call calls ih => exact ih _

/-- What every call keeps, any calls keep. -/
theorem TileStore.serve_keeps {store : TileStore σ} (kept : σ → Prop) {calls : List StoreCall}
    (hcalls : ∀ call ∈ calls, ∀ state, kept state → kept ((store call).onState state).2) {state : σ} (h : kept state) :
    kept (store.serve calls state).2 := by
  induction calls generalizing state with
  | nil => exact h
  | cons call calls ih =>
    exact ih (fun other hother => hcalls other (List.mem_cons_of_mem call hother)) (hcalls call List.mem_cons_self state h)

/-- Where every call is projected, any calls are. -/
theorem TileStore.Projects.serve {store : TileStore σ} {part : TileStore τ} (h : store.Projects view part) :
    ∀ (calls : List StoreCall) (state : σ), TileStore.serve part calls (view state) =
      ((TileStore.serve store calls state).1, view (TileStore.serve store calls state).2) := by
  intro calls
  induction calls with
  | nil => intro state; rfl
  | cons call calls ih =>
    intro state
    rw [TileStore.serve_cons, TileStore.serve_cons, h call state, ih]

end TileDepot
