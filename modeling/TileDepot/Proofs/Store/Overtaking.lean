import TileDepot.Proofs.Cache.Payloads
import TileDepot.Proofs.Depot.Requests
import TileDepot.Proofs.Interleaving
import TileDepot.Proofs.Store.Alone

/-!
# Reads that are overtaken

A tile that is not cached is read from the store and then cached, in two steps. A call that changes the store takes the tile
out of the cache when it is done, but it does not wait for reads under way: where all of the call falls between the two steps
of a read, the read caches what the store no longer holds. In no other way do the cache and the store come apart.
-/

namespace TileDepot

namespace CacheAside

variable {σ α : Type}

/-! ## The steps of the calls -/

/-- The rest of a get that has read a payload from the store: the payload is cached. -/
def keepSteps (cache : Cell σ TileCache) (key : TileKey) (payload : Payload) : Steps σ (Option Payload) := do
  .one (cache.change fun cached => (cached.put key (some payload)).2)
  return some payload

/-- The rest of a get that has found nothing in the cache. -/
def loadSteps (cache : Cell σ TileCache) (store : TileStore σ) (request : Tile) : Steps σ (Option Payload) := do
  match ← .one (store (.get request)) with
  | none => return none
  | some payload => keepSteps cache request.key payload

/-- A get: the tile is looked up, read from the store, and cached. -/
def getSteps (cache : Cell σ TileCache) (store : TileStore σ) (request : Tile) : Steps σ (Option Payload) := do
  match ← .one (lookUp cache request.key) with
  | some payload => return some payload
  | none => loadSteps cache store request

/-- The rest of a call that has changed the store: what it made invalid is dropped. -/
def forgetSteps (cache : Cell σ TileCache) (drop : TileCache → TileCache) (answer : Except Error α) : Steps σ α := do
  .one (cache.change drop)
  .done answer

/-- A put: the tile is stored, and what was cached of it is dropped. -/
def putSteps (cache : Cell σ TileCache) (store : TileStore σ) (tile : Tile) : Steps σ Unit := do
  .one (store (.put tile))
  forgetSteps cache (fun cached => (cached.remove tile.key).2) (.ok ())

/-- A call before and after which the tiles are dropped that it makes invalid. -/
def droppingSteps (cache : Cell σ TileCache) (drop : TileCache → TileCache) (call : Run σ α) : Steps σ α := do
  .one (cache.change drop)
  let answer ← .one (Run.attempt call)
  forgetSteps cache drop answer

/-- The steps of each call of a store with a cache, where there are no locks. -/
def steps (cache : Cell σ TileCache) (store : TileStore σ) : (call : StoreCall) → Steps σ call.Answer
  | .get request => getSteps cache store request
  | .put tile => putSteps cache store tile
  | .delete key => droppingSteps cache (fun cached => (cached.remove key).2) (store (.delete key))
  | .deleteRange range => droppingSteps cache (fun cached => (cached.removeRange range).2) (store (.deleteRange range))
  | .deleteLayer layer => droppingSteps cache (fun cached => (cached.removeLayer layer).2) (store (.deleteLayer layer))
  | .deleteGridset layer gridset =>
    droppingSteps cache (fun cached => (cached.removeWhere fun key => key.layer == layer && key.gridset == gridset).2)
      (store (.deleteGridset layer gridset))
  | .deleteParameters layer parameters =>
    droppingSteps cache
      (fun cached => (cached.removeWhere fun key => key.layer == layer && key.parameters == some parameters).2)
      (store (.deleteParameters layer parameters))
  | .rename layer target => droppingSteps cache (fun cached => (cached.removeLayer layer).2) (store (.rename layer target))
  | .clear => .one (cache.change TileCache.clear)
  | .layerExists layer => .one (store (.layerExists layer))
  | .parametersOf layer => .one (store (.parametersOf layer))
  | .metadata layer key => .one (store (.metadata layer key))
  | .putMetadata layer key value => .one (store (.putMetadata layer key value))
  | .addListener listener => .one (store (.addListener listener))
  | .removeListener listener => .one (store (.removeListener listener))

/-- To keep a payload, taken at once, puts it in the cache. -/
theorem atOnce_keepSteps (cache : Cell σ TileCache) (key : TileKey) (payload : Payload) :
    (keepSteps cache key payload).atOnce =
      (cache.change fun cached => (cached.put key (some payload)).2) >>= fun _ => pure (some payload) :=
  Steps.atOnce_bind _ _

/-- The steps of loading, taken at once, are the call. -/
theorem atOnce_loadSteps (cache : Cell σ TileCache) (store : TileStore σ) (request : Tile) :
    (loadSteps cache store request).atOnce = load cache store request := by
  refine (Steps.atOnce_bind _ _).trans (congrArg _ (funext fun found => ?_))
  cases found with
  | none => rfl
  | some payload => exact atOnce_keepSteps cache request.key payload

/-- The steps of getting a tile, taken at once, are the call. -/
theorem atOnce_getSteps (cache : Cell σ TileCache) (store : TileStore σ) (request : Tile) :
    (getSteps cache store request).atOnce = get cache none store request := by
  refine (Steps.atOnce_bind _ _).trans (congrArg _ (funext fun found => ?_))
  cases found with
  | none => exact atOnce_loadSteps cache store request
  | some payload => rfl

/-- The steps of putting a tile, taken at once, are the call. -/
theorem atOnce_putSteps (cache : Cell σ TileCache) (store : TileStore σ) (tile : Tile) :
    (putSteps cache store tile).atOnce = put cache store tile := by
  refine (Steps.atOnce_bind _ _).trans (congrArg _ (funext fun _ => ?_))
  exact Steps.atOnce_bind _ _

/-- The steps of a call that drops entries, taken at once, are the call. -/
theorem atOnce_droppingSteps (cache : Cell σ TileCache) (drop : TileCache → TileCache) (call : Run σ α) :
    (droppingSteps cache drop call).atOnce = dropping cache drop call := by
  refine (Steps.atOnce_bind _ _).trans (congrArg _ (funext fun _ => ?_))
  refine (Steps.atOnce_bind _ _).trans (congrArg _ (funext fun answer => ?_))
  exact Steps.atOnce_bind _ _

/-- The steps of a call, one right after the other, are the call. -/
theorem atOnce_steps (cache : Cell σ TileCache) (store : TileStore σ) (call : StoreCall) :
    (steps cache store call).atOnce = tileStore cache none store call := by
  cases call with
  | get request => exact atOnce_getSteps cache store request
  | put tile => exact atOnce_putSteps cache store tile
  | delete | deleteRange | deleteLayer | deleteGridset | deleteParameters | rename => exact atOnce_droppingSteps cache _ _
  | clear | layerExists | parametersOf | metadata | putMetadata | addListener | removeListener => rfl

/-! ## What a step of a call does -/

open Resident (alone unheard)

/-- A cache and a store with nobody else, seen through a view of the state that they are part of. -/
structure SeenBy (view : σ → TileCache × Resident) (cache : Cell σ TileCache) (store : TileStore σ) : Prop where
  cache : cache.Seen view .first
  store : store.Projects view (Resident.tileStore .second unheard)

variable {view : σ → TileCache × Resident} {cache : Cell σ TileCache} {store : TileStore σ}

/-- A change of the cache is seen in it and nowhere else. -/
theorem SeenBy.view_change (h : SeenBy view cache store) (change : TileCache → TileCache) (state : σ) :
    view ((cache.change change).onState state).2 = (change (view state).1, (view state).2) :=
  (congrArg Prod.snd (Run.Projects.cell_change h.cache change state)).symm

/-- A look-up is answered by the cache that is seen, and changes nothing else. -/
theorem SeenBy.onState_lookUp (h : SeenBy view cache store) (key : TileKey) (state : σ) :
    ((lookUp cache key).onState state).1 = .ok ((view state).1.payload? key) ∧
      view ((lookUp cache key).onState state).2 = (((view state).1.get key).2, (view state).2) := by
  have hlookUp := Run.Projects.cell_step h.cache (·.get key) state
  rw [← TileCache.get_fst]
  exact ⟨(congrArg Prod.fst hlookUp).symm, (congrArg Prod.snd hlookUp).symm⟩

/-- A call of the store is answered by the one that is seen, and changes nothing else. -/
theorem SeenBy.onState_store (h : SeenBy view cache store) (call : StoreCall) (state : σ) :
    ((store call).onState state).1 = ((alone call).onState (view state).2).1 ∧
      view ((store call).onState state).2 = ((view state).1, ((alone call).onState (view state).2).2) := by
  have hcall := h.store call state
  have hsecond : (Resident.tileStore .second unheard call).onState (view state) = _ :=
    Resident.onState_second call (view state).1 (view state).2
  rw [hsecond] at hcall
  exact ⟨(congrArg Prod.fst hcall).symm, (congrArg Prod.snd hcall).symm⟩

/-- What is cached of a tile is what the store holds. -/
def Coherent (key : TileKey) (state : TileCache × Resident) : Prop :=
  ∀ payload : Payload, state.1.payload? key = some payload → state.2.tiles[key]? = some payload

/-- A tile that is not cached is coherent. -/
theorem Coherent.of_not_cached {key : TileKey} {state : TileCache × Resident} (h : (state.1.payload? key).isNone = true) :
    Coherent key state := by
  intro payload hpayload
  rw [hpayload] at h
  cases h

/-- A tile that is coherent has the same size in the cache and in the store. -/
theorem Coherent.size_eq {key : TileKey} {state : TileCache × Resident} (h : Coherent key state) {size : Nat}
    (hcached : (state.1.payload? key).map Payload.size = some size) : state.2.tiles[key]?.map Payload.size = some size := by
  obtain ⟨payload, hpayload, rfl⟩ := Option.map_eq_some_iff.mp hcached
  rw [h payload hpayload]
  rfl

/-- A step that caches nothing for a tile, and leaves the tile in the store as it is. -/
structure Quiet (key : TileKey) (before after : TileCache × Resident) : Prop where
  cached : ∀ payload : Payload, after.1.payload? key = some payload → before.1.payload? key = some payload
  stored : ∀ payload : Payload, before.2.tiles[key]? = some payload → after.2.tiles[key]? = some payload

/-- A tile stays coherent where nothing happens to it. -/
theorem Quiet.coherent {key : TileKey} {before after : TileCache × Resident} (h : Quiet key before after)
    (hbefore : Coherent key before) : Coherent key after :=
  fun payload hpayload => h.stored payload (hbefore payload (h.cached payload hpayload))

/-! ## The changing call -/

/-- A last step, which drops a tile from the cache if the tile is concerned. -/
def Forgetting (view : σ → TileCache × Resident) (key : TileKey) (concerned : Prop) : Steps σ α → Prop
  | .done _ => False
  | .step change rest => ∀ state, Quiet key (view state) (view (change state)) ∧
      (concerned → (view (change state)).1.payload? key = none) ∧ (rest state).isDone = true

/-- Steps that are quiet about a tile, up to one that may change it in the store; then only one more step follows, which drops
it from the cache. -/
def Changing (view : σ → TileCache × Resident) (key : TileKey) (concerned : Prop) : Steps σ α → Prop
  | .done _ => True
  | .step change rest => ∀ state,
      Quiet key (view state) (view (change state)) ∧ Changing view key concerned (rest state) ∨
        (¬concerned → Quiet key (view state) (view (change state))) ∧ Forgetting view key concerned (rest state)

/-- To drop tiles from the cache is quiet. -/
theorem Quiet.forget {doomed : TileKey → Bool} {drop : TileCache → TileCache} (hdrop : TileCache.Forgets doomed drop)
    (key : TileKey) (state : TileCache × Resident) : Quiet key state (drop state.1, state.2) := by
  refine ⟨fun payload hpayload => ?_, fun _ hstored => hstored⟩
  rw [hdrop] at hpayload
  split at hpayload
  · cases hpayload
  · exact hpayload

/-- To ask the store for something is quiet about the tiles that the call does not concern. -/
theorem SeenBy.quiet_store (h : SeenBy view cache store) {call : StoreCall} {key : TileKey}
    (hconcerns : ¬call.concerns key = true) (state : σ) : Quiet key (view state) (view ((store call).onState state).2) := by
  rw [(h.onState_store call state).2]
  exact ⟨fun _ hcached => hcached, fun _ hstored =>
    (view state).2.alone_keeps (Bool.eq_false_of_not_eq_true hconcerns) hstored⟩

/-- To forget tiles leaves none of them cached. -/
theorem forgetting_forgetSteps (h : SeenBy view cache store) {doomed : TileKey → Bool} {drop : TileCache → TileCache}
    (hdrop : TileCache.Forgets doomed drop) (key : TileKey) (answer : Except Error α) :
    Forgetting view key (doomed key = true) (forgetSteps cache drop answer) := by
  intro state
  change Quiet key (view state) (view ((cache.change drop).onState state).2) ∧
    (doomed key = true → (view ((cache.change drop).onState state).2).1.payload? key = none) ∧ _
  rw [h.view_change]
  refine ⟨.forget hdrop key (view state), fun hdoomed => ?_, rfl⟩
  rw [hdrop, if_pos hdoomed]

/-- A call that drops entries changes only the tiles that it concerns, and leaves none of them cached. -/
theorem changing_droppingSteps (h : SeenBy view cache store) (call : StoreCall) {drop : TileCache → TileCache}
    (hdrop : TileCache.Forgets call.concerns drop) (key : TileKey) :
    Changing view key (call.concerns key = true) (droppingSteps cache drop (store call)) := by
  refine fun state => Or.inl ⟨?_, fun between => Or.inr ⟨fun hconcerns => ?_, ?_⟩⟩
  · change Quiet key (view state) (view ((cache.change drop).onState state).2)
    rw [h.view_change]
    exact .forget hdrop key (view state)
  · exact h.quiet_store hconcerns between
  · exact forgetting_forgetSteps h hdrop key _

/-- To put a tile changes only this one. -/
theorem changing_putSteps (h : SeenBy view cache store) (tile : Tile) (key : TileKey) :
    Changing view key ((StoreCall.put tile).concerns key = true) (putSteps cache store tile) := by
  intro state
  change Quiet key (view state) (view ((store (.put tile)).onState state).2) ∧
      Changing view key _ (Steps.done ((store (.put tile)).onState state).1 >>= _) ∨
    (_ → Quiet key (view state) (view ((store (.put tile)).onState state).2)) ∧
      Forgetting view key _ (Steps.done ((store (.put tile)).onState state).1 >>= _)
  cases hanswer : ((store (.put tile)).onState state).1 with
  | error error =>
    -- A put that fails has changed nothing, and ends without a word to the cache.
    obtain ⟨heq, hview⟩ := h.onState_store (.put tile) state
    rw [Resident.alone_of_error (heq.symm.trans hanswer)] at hview
    rw [hview]
    exact Or.inl ⟨⟨fun _ hcached => hcached, fun _ hstored => hstored⟩, trivial⟩
  | ok value =>
    exact Or.inr ⟨fun hconcerns => h.quiet_store hconcerns state,
      forgetting_forgetSteps h (TileCache.forgets_remove tile.key) key _⟩

/-- To clear the cache changes nothing in the store. -/
theorem changing_clear (h : SeenBy view cache store) (key : TileKey) (concerned : Prop) :
    Changing view key concerned (.one (cache.change TileCache.clear)) := by
  refine fun state => Or.inl ⟨?_, trivial⟩
  change Quiet key (view state) (view ((cache.change TileCache.clear).onState state).2)
  rw [h.view_change]
  refine ⟨fun payload hcached => ?_, fun _ hstored => hstored⟩
  rw [TileCache.payload?_clear] at hcached
  cases hcached

/-- A call that is handed on does not change the tiles that it does not concern. -/
theorem changing_handedOn (h : SeenBy view cache store) {call : StoreCall} {key : TileKey} (hcall : call.concerns key = false)
    (concerned : Prop) : Changing view key concerned (.one (store call)) :=
  fun state => Or.inl ⟨h.quiet_store (Bool.eq_false_iff.mp hcall) state, trivial⟩

/-- Of every call but a get, the steps are quiet about a tile up to one, after which the tile is dropped if it is concerned. -/
theorem changing_steps (h : SeenBy view cache store) {call : StoreCall} (hcall : ∀ request, call ≠ .get request)
    (key : TileKey) : Changing view key (call.concerns key = true) (steps cache store call) := by
  cases call with
  | get request => exact absurd rfl (hcall request)
  | put tile => exact changing_putSteps h tile key
  | delete doomed => exact changing_droppingSteps h (.delete doomed) (TileCache.forgets_remove doomed) key
  | deleteRange range => exact changing_droppingSteps h (.deleteRange range) (TileCache.forgets_removeWhere _) key
  | deleteLayer layer => exact changing_droppingSteps h (.deleteLayer layer) (TileCache.forgets_removeWhere _) key
  | deleteGridset layer gridset =>
    exact changing_droppingSteps h (.deleteGridset layer gridset) (TileCache.forgets_removeWhere _) key
  | deleteParameters layer parameters =>
    exact changing_droppingSteps h (.deleteParameters layer parameters) (TileCache.forgets_removeWhere _) key
  | rename layer target => exact changing_droppingSteps h (.rename layer target) (TileCache.forgets_removeWhere _) key
  | clear => exact changing_clear h key _
  | layerExists | parametersOf | metadata | putMetadata | addListener | removeListener => exact changing_handedOn h rfl _

/-! ## The get -/

/-- How far a get has come, and what it is about to cache. -/
inductive Reading (cache : Cell σ TileCache) (store : TileStore σ) (request : Tile) :
    Steps σ (Option Payload) → Option Payload → Prop where
  | start : Reading cache store request (getSteps cache store request) none
  | missed : Reading cache store request (loadSteps cache store request) none
  | read (payload : Payload) : Reading cache store request (keepSteps cache request.key payload) (some payload)
  | done (answer : Except Error (Option Payload)) : Reading cache store request (.done answer) none

/-- A reader that has a payload in its hands is about to keep it. -/
theorem Reading.eq_keepSteps {request : Tile} {reader : Steps σ (Option Payload)} {payload : Payload}
    (h : Reading cache store request reader (some payload)) : reader = keepSteps cache request.key payload := by
  cases h with
  | read => rfl

/-- A step of a get changes no tile of the store. What it caches it was about to cache, and what it is about to cache it has
just read. -/
theorem Reading.advance (h : SeenBy view cache store) {request : Tile} {reader : Steps σ (Option Payload)}
    {held : Option Payload} (hreading : Reading cache store request reader held) (state : σ) :
    ∃ held', Reading cache store request (reader.advance state).1 held' ∧
      (view (reader.advance state).2).2.tiles = (view state).2.tiles ∧
      (∀ payload, held' = some payload → (view state).2.tiles[request.key]? = some payload) ∧
      ∀ payload, (view (reader.advance state).2).1.payload? request.key = some payload →
        (view state).1.payload? request.key = some payload ∨
          held = some payload ∧ payload.size ≤ (view state).1.settings.capacity := by
  cases hreading with
  | start =>
    obtain ⟨hanswer, hview⟩ := h.onState_lookUp request.key state
    rw [getSteps, Steps.advance_one_bind, hanswer, Steps.done_ok_bind, hview]
    refine ⟨none, ?_, rfl, nofun, fun payload hpayload => Or.inl ?_⟩
    · cases (view state).1.payload? request.key with
      | none => exact .missed
      | some payload => exact .done _
    · exact (TileCache.payload?_get _ _ _).symm.trans hpayload
  | missed =>
    obtain ⟨hanswer, hview⟩ := h.onState_store (.get request) state
    rw [Resident.onState_get] at hanswer hview
    rw [loadSteps, Steps.advance_one_bind, hanswer, Steps.done_ok_bind, hview]
    cases (view state).2.tiles[request.key]? with
    | none => exact ⟨none, .done _, rfl, nofun, fun _ hpayload => Or.inl hpayload⟩
    | some payload => exact ⟨some payload, .read payload, rfl, fun _ hheld => hheld, fun _ hpayload => Or.inl hpayload⟩
  | read payload =>
    rw [keepSteps, Steps.advance_one_bind, h.view_change]
    refine ⟨none, .done _, rfl, nofun, fun cached hcached => ?_⟩
    by_cases hlarge : (view state).1.settings.capacity < payload.size
    · rw [TileCache.put_of_large hlarge] at hcached
      exact Or.inl hcached
    · rcases TileCache.payload?_put hcached with ⟨-, rfl⟩ | hold
      · exact Or.inr ⟨rfl, Nat.le_of_not_lt hlarge⟩
      · exact Or.inl hold
  | done answer => exact ⟨none, .done answer, rfl, nofun, fun _ hpayload => Or.inl hpayload⟩

/-! ## A get and a changing call -/

/-- What is cached of a tile is what the store holds, and so is what a get is about to cache. -/
def Backed (key : TileKey) (held : Option Payload) (state : TileCache × Resident) : Prop :=
  Coherent key state ∧ ∀ payload : Payload, held = some payload → state.2.tiles[key]? = some payload

/-- A payload stays backed where nothing happens to its tile. -/
theorem Quiet.backed {key : TileKey} {held : Option Payload} {before after : TileCache × Resident} (h : Quiet key before after)
    (hbefore : Backed key held before) : Backed key held after :=
  ⟨h.coherent hbefore.1, fun payload hheld => h.stored payload (hbefore.2 payload hheld)⟩

/-- How a cache and a store stand to one another while a get and a changing call are under way. Between the change and the
last step of the changing call anything may be cached of a tile that is concerned. -/
inductive Unspoilt (view : σ → TileCache × Resident) (key : TileKey) (concerned : Prop) (writer : Steps σ α)
    (held : Option Payload) (state : TileCache × Resident) : Prop where
  | ahead (hwriter : Changing view key concerned writer) (hbacked : Backed key held state)
  | between (hwriter : Forgetting view key concerned writer) (hbacked : ¬concerned → Backed key held state)
  | after (hwriter : writer.isDone = true) (hcoherent : Coherent key state)

variable {key : TileKey} {concerned : Prop} {held : Option Payload} {writer : Steps σ α}

/-- Once the changing call is done, the cache and the store agree. -/
theorem Unspoilt.coherent {state : TileCache × Resident} (h : Unspoilt view key concerned writer held state)
    (hdone : writer.isDone = true) : Coherent key state := by
  cases h with
  | ahead _ hbacked => exact hbacked.1
  | between hwriter _ =>
    cases writer with
    | done answer => exact hwriter.elim
    | step => cases hdone
  | after _ hcoherent => exact hcoherent

/-- A step of the changing call. -/
theorem Unspoilt.advance {state : σ} (h : Unspoilt view key concerned writer held (view state)) :
    Unspoilt view key concerned (writer.advance state).1 held (view (writer.advance state).2) := by
  cases h with
  | ahead hwriter hbacked =>
    cases writer with
    | done answer => exact .ahead hwriter hbacked
    | step change rest =>
      rcases hwriter state with ⟨hquiet, hrest⟩ | ⟨hquiet, hrest⟩
      · exact .ahead hrest (hquiet.backed hbacked)
      · exact .between hrest fun hconcerned => (hquiet hconcerned).backed hbacked
  | between hwriter hbacked =>
    cases writer with
    | done answer => exact hwriter.elim
    | step change rest =>
      obtain ⟨hquiet, hdropped, hdone⟩ := hwriter state
      refine .after hdone ?_
      by_cases hconcerned : concerned
      · intro payload hpayload
        change (view (change state)).1.payload? key = some payload at hpayload
        rw [hdropped hconcerned] at hpayload
        cases hpayload
      · exact hquiet.coherent (hbacked hconcerned).1
  | after hwriter hcoherent =>
    rw [Steps.advance_of_isDone hwriter]
    exact .after hwriter hcoherent

/-- A get that is late: the other run is done, and the get is about to cache a payload that the store no longer holds and that
the cache has room for. -/
def Late (view : σ → TileCache × Resident) (cache : Cell σ TileCache) (request : Tile)
    (meeting : Meeting σ (Option Payload) α) : Prop :=
  meeting.second.isDone = true ∧ ∃ payload, meeting.first = keepSteps cache request.key payload ∧
    payload.size ≤ (view meeting.state).1.settings.capacity ∧
    (view meeting.state).2.tiles[request.key]? ≠ some payload

/-- A get and a changing call under way, which have not spoilt the cache. -/
def Sound (view : σ → TileCache × Resident) (cache : Cell σ TileCache) (store : TileStore σ) (request : Tile) (concerned : Prop)
    (meeting : Meeting σ (Option Payload) α) : Prop :=
  ∃ held, Reading cache store request meeting.first held ∧
    Unspoilt view request.key concerned meeting.second held (view meeting.state)

variable {request : Tile} {meeting : Meeting σ (Option Payload) α}

/-- Where the get is not late, no turn spoils the cache. -/
theorem Sound.take (hseen : SeenBy view cache store) (h : Sound view cache store request concerned meeting)
    (hlate : ¬Late view cache request meeting) (turn : Turn) :
    Sound view cache store request concerned (meeting.take turn) := by
  obtain ⟨held, hreading, hunspoilt⟩ := h
  cases turn with
  | second => exact ⟨held, hreading, hunspoilt.advance⟩
  | first =>
    obtain ⟨held', hreading', htiles, hheld', hcached⟩ := hreading.advance hseen meeting.state
    refine ⟨held', hreading', ?_⟩
    have hbacked : Backed request.key held (view meeting.state) →
        Backed request.key held' (view (meeting.first.advance meeting.state).2) := by
      intro hbefore
      refine ⟨fun payload hpayload => ?_, fun payload hheld => by rw [htiles]; exact hheld' payload hheld⟩
      rw [htiles]
      rcases hcached payload hpayload with hold | ⟨hheld, -⟩
      · exact hbefore.1 payload hold
      · exact hbefore.2 payload hheld
    cases hunspoilt with
    | ahead hwriter hbefore => exact .ahead hwriter (hbacked hbefore)
    | between hwriter hbefore => exact .between hwriter fun hconcerned => hbacked (hbefore hconcerned)
    | after hwriter hcoherent =>
      refine .after hwriter fun payload hpayload => ?_
      change (view (meeting.first.advance meeting.state).2).2.tiles[request.key]? = some payload
      rw [htiles]
      rcases hcached payload hpayload with hold | ⟨rfl, hfits⟩
      · exact hcoherent payload hold
      · by_contra hstored
        exact hlate ⟨hwriter, payload, hreading.eq_keepSteps, hfits, hstored⟩

/-- Nor do many. -/
theorem Sound.follow (hseen : SeenBy view cache store) (turns : List Turn) :
    ∀ meeting : Meeting σ (Option Payload) α, Sound view cache store request concerned meeting →
      (∀ before after, turns = before ++ after → ¬Late view cache request (meeting.follow before)) →
        Sound view cache store request concerned (meeting.follow turns) := by
  induction turns with
  | nil => intro meeting h _; exact h
  | cons turn turns ih =>
    intro meeting h hlate
    refine ih (meeting.take turn) (h.take hseen (hlate [] (turn :: turns) rfl) turn) fun before after heq => ?_
    exact hlate (turn :: before) after (congrArg (turn :: ·) heq)

/-- A late get spoils the cache, whatever turns lead to the end. -/
theorem Late.spoils (hseen : SeenBy view cache store) (turns : List Turn) :
    ∀ meeting : Meeting σ (Option Payload) α, Late view cache request meeting → (meeting.follow turns).isOver = true →
      ¬Coherent request.key (view (meeting.follow turns).state) := by
  induction turns with
  | nil =>
    rintro meeting ⟨-, payload, hfirst, -⟩ hover
    rw [Meeting.follow, List.foldl_nil, Meeting.isOver, hfirst] at hover
    cases hover
  | cons turn turns ih =>
    intro meeting hlate hover
    obtain ⟨hdone, payload, hfirst, hfits, hstored⟩ := hlate
    cases turn with
    | second =>
      have hsame : meeting.take .second = meeting := by rw [Meeting.take, Steps.advance_of_isDone hdone]
      rw [Meeting.follow, List.foldl_cons, hsame] at hover ⊢
      exact ih meeting ⟨hdone, payload, hfirst, hfits, hstored⟩ hover
    | first =>
      have hview : view (meeting.take .first).state =
          (((view meeting.state).1.put request.key (some payload)).2, (view meeting.state).2) := by
        change view (meeting.first.advance meeting.state).2 = _
        rw [hfirst, keepSteps, Steps.advance_one_bind, hseen.view_change]
      have hover' : (meeting.take .first).isOver = true := by
        rw [Meeting.isOver, Meeting.take, hfirst, hdone]
        rfl
      rw [Meeting.follow, List.foldl_cons, ← Meeting.follow, Meeting.follow_of_isOver hover', hview]
      exact fun hcoherent => hstored (hcoherent payload (TileCache.payload?_put_self hfits))

end CacheAside

/-- A depot with a tile of five bytes in its store, and nothing in the cache before it. -/
def Sample.coldDepot : Depot :=
  let tree : StoreTree := .cached "cache" Settings.defaultCache none (.resident "tiles")
  let opened := DepotPlan.opened ⟨tree, none, ⟨false, none, []⟩, .reliable⟩ (.atMinutes 5) Sample.table none
  ((tree.tileStore .whole DepotPlan.unheld (.put (Sample.tile "roads" 1 2 5))).onState opened).2

/-- A get of that tile, which overlaps with a call. -/
def Sample.meeting (call : StoreCall) : Meeting Depot (Option Payload) call.Answer :=
  let cache := (Depot.cacheCell "cache").inside .whole
  let store := (StoreTree.resident "tiles").tileStore .whole DepotPlan.unheld
  ⟨CacheAside.steps cache store (.get (Sample.request "roads" 1 2)), CacheAside.steps cache store call, coldDepot⟩

namespace Depot

open CacheAside (Coherent Late SeenBy Sound)

/-- A get of a tile and any call but a get are taken in steps, which one right after the other are the calls of the store with
its cache. The steps overlap in whatever turns, with a cache that agrees with the store on the tile at first. When both calls are
done, the cache agrees with the store on the tile exactly if the get was never late: at no moment was the other call done while
the get was about to cache a payload that the store no longer held. -/
theorem coherent_iff_never_late (name backing : String) (settings : CacheSettings) (request : Tile) (call : StoreCall)
    (hcall : ∀ other, call ≠ .get other) (depot : Depot)
    (hcoherent : Coherent request.key (cacheView name backing depot)) :
    let cache := (cacheCell name).inside .whole
    let store := (StoreTree.resident backing).tileStore .whole DepotPlan.unheld
    let cached := (StoreTree.cached name settings none (.resident backing)).tileStore .whole DepotPlan.unheld
    let meeting : Meeting Depot (Option Payload) call.Answer :=
      ⟨CacheAside.steps cache store (.get request), CacheAside.steps cache store call, depot⟩
    meeting.first.atOnce = cached (.get request) ∧ meeting.second.atOnce = cached call ∧
      ∀ turns : List Turn, (meeting.follow turns).isOver = true →
        (Coherent request.key (cacheView name backing (meeting.follow turns).state) ↔
          ∀ before after, turns = before ++ after → ¬Late (cacheView name backing) cache request (meeting.follow before)) := by
  intro cache store cached meeting
  have hseen : SeenBy (cacheView name backing) cache store := ⟨seen_cache name backing, seen_backing name backing⟩
  refine ⟨CacheAside.atOnce_steps cache store (.get request), CacheAside.atOnce_steps cache store call, fun turns hover => ?_⟩
  constructor
  · rintro hafter before after rfl hlate
    rw [Meeting.follow_append] at hover hafter
    exact hlate.spoils hseen after _ hover hafter
  · intro hnever
    have hstart : Sound (cacheView name backing) cache store request (call.concerns request.key = true) meeting :=
      ⟨none, .start, .ahead (CacheAside.changing_steps hseen hcall request.key) ⟨hcoherent, nofun⟩⟩
    obtain ⟨held, -, hunspoilt⟩ := hstart.follow hseen turns meeting hnever
    exact hunspoilt.coherent (Bool.and_eq_true_iff.mp hover).2

/-- The tile is deleted while the get is about to cache it: then they do not agree, so that the get has been late. -/
theorem late_get_of_deleted_tile :
    let key := (Sample.request "roads" 1 2).key
    let turns := [Turn.first, .first, .second, .second, .second, .first]
    let meeting := Sample.meeting (.delete key)
    Coherent key (cacheView "cache" "tiles" Sample.coldDepot) ∧ (meeting.follow turns).isOver = true ∧
      ∃ before after, turns = before ++ after ∧ Late (cacheView "cache" "tiles") ((cacheCell "cache").inside .whole)
        (Sample.request "roads" 1 2) (meeting.follow before) := by
  intro key turns meeting
  have hcold : Coherent key (cacheView "cache" "tiles" Sample.coldDepot) := .of_not_cached (by decide +kernel)
  have hover : (meeting.follow turns).isOver = true := by decide +kernel
  obtain ⟨-, -, hiff⟩ := coherent_iff_never_late "cache" "tiles" Settings.defaultCache (Sample.request "roads" 1 2)
    (.delete key) nofun Sample.coldDepot hcold
  refine ⟨hcold, hover, ?_⟩
  by_contra hnever
  have hcoherent : Coherent key (cacheView "cache" "tiles" (meeting.follow turns).state) :=
    (hiff turns hover).mpr fun before after heq hlate => hnever ⟨before, after, heq, hlate⟩
  have hstored := hcoherent.size_eq (by decide +kernel : _ = some 5)
  exact absurd hstored (by decide +kernel)

/-- A tile that is not cached is got, and deleted or replaced, both at a time. All of the deletion, or of the put, falls between
the read of the get and its last step; in the end the cache holds what the store does not. -/
theorem stale_tile_cached :
    let key := (Sample.request "roads" 1 2).key
    let deleted := (Sample.meeting (.delete key)).follow [.first, .first, .second, .second, .second, .first]
    let replaced := (Sample.meeting (.put (Sample.tile "roads" 1 2 7))).follow [.first, .first, .second, .second, .first]
    Coherent key (cacheView "cache" "tiles" Sample.coldDepot) ∧
      deleted.isOver = true ∧ ¬Coherent key (cacheView "cache" "tiles" deleted.state) ∧
      replaced.isOver = true ∧ ¬Coherent key (cacheView "cache" "tiles" replaced.state) := by
  intro key deleted replaced
  refine ⟨.of_not_cached (by decide +kernel), by decide +kernel, fun hcoherent => ?_, by decide +kernel, fun hcoherent => ?_⟩
  · have hstored := hcoherent.size_eq (by decide +kernel : _ = some 5)
    exact absurd hstored (by decide +kernel)
  · have hstored := hcoherent.size_eq (by decide +kernel : _ = some 5)
    exact absurd hstored (by decide +kernel)

end Depot

end TileDepot
