import Mathlib.Algebra.BigOperators.Group.Finset.Basic
import Mathlib.Algebra.Order.BigOperators.Group.Finset
import TileDepot.Proofs.Cache.Bound
import TileDepot.Proofs.Crowd
import TileDepot.Proofs.Store.Overtaking

/-!
# A tile that many ask for at a time

A get that has not found its tile in a cache with locks takes the lock of the tile, and looks for it once more before it asks the
store. So of any number of gets of one tile, the first that has the lock loads the tile; whoever has missed it as well finds it
when the lock is free again, because the tile is cached before the lock is given back.
-/

namespace TileDepot.CacheAside

variable {σ ι : Type} {cache : Cell σ TileCache} {store : TileStore σ}

/-! ## A get with locks -/

/-- A get with locks: the tile is looked up, and if it is missing its lock is taken, under which the get begins anew. -/
def getScript (cache : Cell σ TileCache) (store : TileStore σ) (request : Tile) : Script σ (Option Payload) :=
  .step (fun state => ((lookUp cache request.key).onState state).2) fun state =>
    match ((lookUp cache request.key).onState state).1 with
    | .ok none => .acquire (lockName request.key) (.underLock (lockName request.key) (getSteps cache store request))
    | answer => .done answer

/-- Its steps, one right after the other, are the get. -/
theorem atOnce_getScript {locks : Locks σ} (hlocks : locks.Reliable) (cache : Cell σ TileCache) (store : TileStore σ)
    (request : Tile) : (getScript cache store request).atOnce locks = CacheAside.get cache (some locks) store request := by
  refine funext fun state => ?_
  change ((match ((lookUp cache request.key).onState state).1 with
      | .ok none => .acquire (lockName request.key) (.underLock (lockName request.key) (getSteps cache store request))
      | answer => .done answer : Script σ (Option Payload)).atOnce locks).onState ((lookUp cache request.key).onState state).2 =
    (CacheAside.get cache (some locks) store request).onState state
  rw [CacheAside.get, Run.onState_bind]
  rcases (lookUp cache request.key).onState state with ⟨error | _ | payload, after⟩
  · rfl
  · change (locks.acquire (lockName request.key) >>= fun _ => (Script.underLock (lockName request.key)
      (getSteps cache store request)).atOnce locks).onState after = (loadLocked cache locks store request).onState after
    rw [loadLocked, Run.onState_bind, Run.onState_bind, Run.onState_attempt]
    have hgot := hlocks (lockName request.key) after
    rcases hacquire : (locks.acquire (lockName request.key)).onState after with ⟨answer, later⟩
    rw [hacquire] at hgot
    obtain rfl : answer = .ok () := hgot
    rw [Script.atOnce_underLock, atOnce_getSteps]
    rfl
  · rfl

/-- A tile that is in a store beside a cache, as far as gets of the tile go: what the store answers, and what is counted. -/
structure Stocked (cache : Cell σ TileCache) (store : TileStore σ) (key : TileKey) (payload : Payload) (stocked : σ → Prop)
    (reads : σ → Nat) : Prop where
  read_write : ∀ cached state, cache.read (cache.write cached state) = cached
  stocked_write : ∀ cached {state}, stocked state → stocked (cache.write cached state)
  reads_write : ∀ cached state, reads (cache.write cached state) = reads state
  answer : ∀ {request state}, request.key = key → stocked state →
    ((store (.get request)).onState state).1 = .ok (some payload)
  cache_after : ∀ {request state}, request.key = key → stocked state →
    cache.read ((store (.get request)).onState state).2 = cache.read state
  stocked_after : ∀ {request state}, request.key = key → stocked state → stocked ((store (.get request)).onState state).2
  reads_after : ∀ {request state}, request.key = key → stocked state →
    reads ((store (.get request)).onState state).2 = reads state + 1

/-- A resident store that holds the tile, seen beside a cache. -/
theorem SeenBy.stocked {view : σ → TileCache × Resident} (h : SeenBy view cache store) (key : TileKey) (payload : Payload) :
    Stocked cache store key payload (fun state => (view state).2.tiles[key]? = some payload)
      (fun state => (view state).2.reads) where
  read_write cached state := by
    rw [← h.cache.read, ← h.cache.write]
    rfl
  stocked_write cached state hstocked := by
    rw [← h.cache.write]
    exact hstocked
  reads_write cached state := by
    rw [← h.cache.write]
    rfl
  answer {request state} hkey hstocked := by
    rw [(h.onState_store (.get request) state).1, Resident.onState_get, hkey, hstocked]
  cache_after {request state} hkey hstocked := by
    rw [← h.cache.read, ← h.cache.read, (h.onState_store (.get request) state).2]
    rfl
  stocked_after {request state} hkey hstocked := by
    rw [(h.onState_store (.get request) state).2, Resident.onState_get]
    exact hstocked
  reads_after {request state} hkey hstocked := by
    rw [(h.onState_store (.get request) state).2, Resident.onState_get]

/-! ## How far a get has come -/

/-- How far a get has come. -/
inductive Place where
  | start
  /-- It has not found the tile, and is to take the lock. -/
  | missed
  /-- It has the lock, and is to look for the tile once more. -/
  | entered
  /-- It is to read the tile from the store. -/
  | loading
  /-- It is to cache the tile. -/
  | keeping
  /-- It is to give the lock back. -/
  | leaving
  | finished
deriving DecidableEq

namespace Place

/-- The rest of a get. -/
def script (cache : Cell σ TileCache) (store : TileStore σ) (payload : Payload) (request : Tile) :
    Place → Script σ (Option Payload)
  | start => getScript cache store request
  | missed => .acquire (lockName request.key) (.underLock (lockName request.key) (getSteps cache store request))
  | entered => .underLock (lockName request.key) (getSteps cache store request)
  | loading => .underLock (lockName request.key) (loadSteps cache store request)
  | keeping => .underLock (lockName request.key) (keepSteps cache request.key payload)
  | leaving => .release (lockName request.key) (.done (.ok (some payload)))
  | finished => .done (.ok (some payload))

/-- Whether a get has the lock. -/
def isInside : Place → Bool
  | entered | loading | keeping | leaving => true
  | start | missed | finished => false

/-- How many steps are left at most. -/
def left : Place → Nat
  | start => 6
  | missed => 5
  | entered => 4
  | loading => 3
  | keeping => 2
  | leaving => 1
  | finished => 0

/-- Where a get comes to with its next step, which depends on whether the tile is cached. -/
def next (cached : Bool) : Place → Place
  | start => if cached then finished else missed
  | missed => entered
  | entered => if cached then leaving else loading
  | loading => keeping
  | keeping => leaving
  | leaving | finished => finished

/-- What its next step does to the state. -/
def change (cache : Cell σ TileCache) (store : TileStore σ) (payload : Payload) (request : Tile) : Place → σ → σ
  | start | entered => fun state => ((lookUp cache request.key).onState state).2
  | loading => fun state => ((store (.get request)).onState state).2
  | keeping => fun state => ((cache.change fun cached => (cached.put request.key (some payload)).2).onState state).2
  | missed | leaving | finished => id

/-- Who holds the lock after the next step of a get. -/
def holderAfter (party : ι) (holder : Option ι) : Place → Option ι
  | missed => some party
  | leaving => none
  | start | entered | loading | keeping | finished => holder

end Place

/-- What has happened to a tile: nothing, or it was read from the store, or it was cached as well. -/
inductive Phase where
  | cold
  | loaded
  | warm
deriving DecidableEq

namespace Phase

/-- Whether the tile is cached. -/
def isWarm : Phase → Bool
  | warm => true
  | cold | loaded => false

/-- How often the tile was read. -/
def reads : Phase → Nat
  | cold => 0
  | loaded | warm => 1

/-- How far a get may have come. -/
def allows : Phase → Place → Bool
  | cold, .start | cold, .missed | cold, .entered | cold, .loading => true
  | loaded, .start | loaded, .missed | loaded, .keeping => true
  | warm, .start | warm, .missed | warm, .entered | warm, .leaving | warm, .finished => true
  | _, _ => false

/-- What has happened after the next step of a get. -/
def next : Phase → Place → Phase
  | cold, .loading => loaded
  | loaded, .keeping => warm
  | phase, _ => phase

end Phase

/-- Gets of one tile, each as far as it has come, and what has happened to the tile. -/
structure Populating (cache : Cell σ TileCache) (store : TileStore σ) (key : TileKey) (payload : Payload) (stocked : σ → Prop)
    (reads : σ → Nat) (requests : ι → Tile) (before : Nat) (crowd : Crowd ι σ (Option Payload)) (place : ι → Place)
    (phase : Phase) : Prop where
  scripts : ∀ party, crowd.scripts party = (place party).script cache store payload (requests party)
  holder : ∀ party, (place party).isInside = true ↔ crowd.holder (lockName key) = some party
  allows : ∀ party, phase.allows (place party) = true
  held : phase = .loaded → crowd.holder (lockName key) ≠ none
  stocked : stocked crowd.state
  room : payload.size ≤ (cache.read crowd.state).settings.capacity
  cached : (cache.read crowd.state).payload? key = if phase.isWarm then some payload else none
  reads : reads crowd.state = before + phase.reads

/-! ## One turn -/

theorem onState_lookUp_cell (cache : Cell σ TileCache) (key : TileKey) (state : σ) : (lookUp cache key).onState state =
    (.ok ((cache.read state).payload? key), cache.write ((cache.read state).get key).2 state) := by
  rw [← TileCache.get_fst]
  rfl

section Turn

variable {key : TileKey} {payload : Payload} {stocked : σ → Prop} {reads : σ → Nat}

/-- A get that does not move has come to its end, or waits for the lock. -/
theorem isIdle_iff_of_script {crowd : Crowd ι σ (Option Payload)} {party : ι} {place : Place} {request : Tile}
    (hscript : crowd.scripts party = place.script cache store payload request) :
    crowd.IsIdle party ↔ place = .finished ∨ place = .missed ∧ crowd.holder (lockName request.key) ≠ none := by
  unfold Crowd.IsIdle
  rw [hscript]
  cases place with
  | finished => exact iff_of_true trivial (Or.inl rfl)
  | missed => simp [Place.script]
  | start | entered | loading | keeping | leaving => exact iff_of_false id (by simp)

/-- What a turn of a get comes to that does not wait. -/
theorem take_of_script [DecidableEq ι] (h : Stocked cache store key payload stocked reads) {crowd : Crowd ι σ (Option Payload)}
    {party : ι} {place : Place} {request : Tile} (hkey : request.key = key)
    (hscript : crowd.scripts party = place.script cache store payload request) (hmoves : ¬crowd.IsIdle party)
    (hstocked : stocked crowd.state) {cached : Bool}
    (hcached : (cache.read crowd.state).payload? key = if cached then some payload else none) :
    crowd.take party = ⟨Function.update crowd.scripts party ((place.next cached).script cache store payload request),
      place.change cache store payload request crowd.state,
      Function.update crowd.holder (lockName key) (place.holderAfter party (crowd.holder (lockName key)))⟩ := by
  subst hkey
  have hlookUp := congrArg Prod.fst (onState_lookUp_cell cache request.key crowd.state)
  dsimp only at hlookUp
  rw [hcached] at hlookUp
  cases place with
  | start =>
    simp only [Crowd.take, hscript, Place.script, getScript, Place.holderAfter, Function.update_eq_self]
    rw [hlookUp]
    cases cached <;> rfl
  | missed =>
    have hfree : crowd.holder (lockName request.key) = none := by
      simpa [isIdle_iff_of_script hscript] using hmoves
    simp only [Crowd.take, hscript, Place.script, hfree]
    rfl
  | entered =>
    rw [Crowd.take_underLock hscript, hlookUp, Place.holderAfter, Function.update_eq_self]
    cases cached <;> rfl
  | loading =>
    rw [Crowd.take_underLock hscript, h.answer rfl hstocked, Place.holderAfter, Function.update_eq_self]
    rfl
  | keeping =>
    rw [Crowd.take_underLock hscript, Place.holderAfter, Function.update_eq_self]
    rfl
  | leaving =>
    simp only [Crowd.take, hscript, Place.script]
    rfl
  | finished => exact absurd ((isIdle_iff_of_script hscript).mpr (Or.inl rfl)) hmoves

/-- A state that shows what has happened to the tile: it is still stored, the cache has room for it, and has it if it was cached,
and it was read as often as it was loaded. -/
structure Shows (cache : Cell σ TileCache) (key : TileKey) (payload : Payload) (stocked : σ → Prop) (reads : σ → Nat)
    (before : Nat) (phase : Phase) (state : σ) : Prop where
  stocked : stocked state
  room : payload.size ≤ (cache.read state).settings.capacity
  cached : (cache.read state).payload? key = if phase.isWarm then some payload else none
  reads : reads state = before + phase.reads

namespace Shows

variable {before : Nat} {phase : Phase} {place : Place} {request : Tile} {state : σ}

/-- A look-up changes neither the tiles nor the room of the cache. -/
theorem lookUp (h : Stocked cache store key payload stocked reads)
    (hshows : Shows cache key payload stocked reads before phase state) :
    Shows cache key payload stocked reads before phase ((CacheAside.lookUp cache key).onState state).2 := by
  rw [onState_lookUp_cell]
  refine ⟨h.stocked_write _ hshows.stocked, ?_, ?_, ?_⟩
  · rw [h.read_write, show ((cache.read state).get key).2.settings = (cache.read state).settings from
      (cache.read state).settings_perform (.get key)]
    exact hshows.room
  · rw [h.read_write, TileCache.payload?_get]
    exact hshows.cached
  · rw [h.reads_write]
    exact hshows.reads

theorem load (h : Stocked cache store key payload stocked reads) (hkey : request.key = key)
    (hshows : Shows cache key payload stocked reads before .cold state) :
    Shows cache key payload stocked reads before .loaded ((store (.get request)).onState state).2 := by
  refine ⟨h.stocked_after hkey hshows.stocked, ?_, ?_, ?_⟩
  · rw [h.cache_after hkey hshows.stocked]
    exact hshows.room
  · rw [h.cache_after hkey hshows.stocked]
    exact hshows.cached
  · rw [h.reads_after hkey hshows.stocked, hshows.reads]
    rfl

theorem keep (h : Stocked cache store key payload stocked reads)
    (hshows : Shows cache key payload stocked reads before .loaded state) :
    Shows cache key payload stocked reads before .warm
      (cache.write ((cache.read state).put key (some payload)).2 state) := by
  refine ⟨h.stocked_write _ hshows.stocked, ?_, ?_, ?_⟩
  · rw [h.read_write, TileCache.settings_put]
    exact hshows.room
  · rw [h.read_write]
    exact TileCache.payload?_put_self hshows.room
  · rw [h.reads_write]
    exact hshows.reads

/-- What the next step of a get does to the state is what happens to the tile. -/
theorem change (h : Stocked cache store key payload stocked reads) (hkey : request.key = key)
    (hallows : phase.allows place = true) (hshows : Shows cache key payload stocked reads before phase state) :
    Shows cache key payload stocked reads before (phase.next place) (place.change cache store payload request state) := by
  subst hkey
  cases place with
  | start => cases phase <;> exact hshows.lookUp h
  | entered => cases phase <;> exact hshows.lookUp h
  | missed => cases phase <;> exact hshows
  | leaving => cases phase <;> exact hshows
  | finished => cases phase <;> exact hshows
  | loading =>
    cases phase with
    | cold => exact hshows.load h rfl
    | loaded => cases hallows
    | warm => cases hallows
  | keeping =>
    cases phase with
    | cold => cases hallows
    | loaded => exact hshows.keep h
    | warm => cases hallows

end Shows

end Turn

namespace Place

variable {place : Place} {party other : ι} {holder : Option ι}

/-- Who has moved has the lock then if it is inside. -/
theorem isInside_next {cached : Bool} (hinside : place.isInside = true ↔ holder = some party) :
    (place.next cached).isInside = true ↔ place.holderAfter party holder = some party := by
  cases place with
  | start => cases cached <;> exact hinside
  | missed => exact iff_of_true rfl rfl
  | entered => cases cached <;> exact hinside
  | loading => exact hinside
  | keeping => exact hinside
  | leaving => exact iff_of_false Bool.false_ne_true (Option.some_ne_none party).symm
  | finished => exact hinside

/-- Who has not moved has the lock if it had it before. -/
theorem holderAfter_other (hne : other ≠ party) (hinside : place.isInside = true ↔ holder = some party)
    (hfree : place = .missed → holder = none) : place.holderAfter party holder = some other ↔ holder = some other := by
  cases place with
  | missed =>
    rw [hfree rfl]
    exact iff_of_false (fun heq => hne (Option.some.inj heq).symm) (Option.some_ne_none other).symm
  | leaving =>
    rw [hinside.mp rfl]
    exact iff_of_false (Option.some_ne_none other).symm fun heq => hne (Option.some.inj heq).symm
  | start | entered | loading | keeping | finished => exact Iff.rfl

theorem left_next_lt {cached : Bool} (h : place ≠ .finished) : (place.next cached).left < place.left := by
  revert h
  cases place <;> cases cached <;> decide

end Place

namespace Phase

variable {phase : Phase} {place other : Place}

/-- Whoever moves comes to a place where it may be then. -/
theorem allows_next (h : phase.allows place = true) (hheld : phase = .loaded → place ≠ .missed) :
    (phase.next place).allows (place.next phase.isWarm) = true := by
  revert h hheld
  cases phase <;> cases place <;> decide

/-- The others may be where they are, since only one get has the lock. -/
theorem allows_other (h : phase.allows place = true) (hother : phase.allows other = true)
    (halone : place.isInside = true → other.isInside = false) : (phase.next place).allows other = true := by
  revert h hother halone
  cases phase <;> cases place <;> cases other <;> decide

/-- The tile has been read and not been cached by now: the get that moved read it, or took or did not touch the lock. -/
theorem of_next_loaded (h : phase.allows place = true) (hnext : phase.next place = .loaded) :
    place = .loading ∨ place = .missed ∨ phase = .loaded ∧ place = .start := by
  revert h hnext
  cases phase <;> cases place <;> decide

end Phase

/-! ## Many gets -/

section Many

variable {key : TileKey} {payload : Payload} {stocked : σ → Prop} {reads : σ → Nat} {requests : ι → Tile} {before : Nat}
  {crowd : Crowd ι σ (Option Payload)} {place : ι → Place} {phase : Phase}

/-- Nobody has moved yet. -/
theorem populating_gathered {state : σ} (hstocked : stocked state)
    (hroom : payload.size ≤ (cache.read state).settings.capacity) (hcold : (cache.read state).payload? key = none) :
    Populating cache store key payload stocked reads requests (reads state)
      (.gathered (fun party => getScript cache store (requests party)) state) (fun _ => .start) .cold where
  scripts _ := rfl
  holder _ := by simp [Place.isInside, Crowd.gathered]
  allows _ := rfl
  held h := by cases h
  stocked := hstocked
  room := hroom
  cached := hcold
  reads := rfl

variable (h : Populating cache store key payload stocked reads requests before crowd place phase)

include h

/-- A get that has come to its end has found the tile. -/
theorem Populating.of_done {party : ι} {answer : Except Error (Option Payload)} (hdone : crowd.scripts party = .done answer) :
    place party = .finished := by
  have hidle : crowd.IsIdle party := by simp [Crowd.IsIdle, hdone]
  rcases (isIdle_iff_of_script (h.scripts party)).mp hidle with hfinished | ⟨hmissed, -⟩
  · exact hfinished
  · have hscript := h.scripts party
    rw [hdone, hmissed] at hscript
    cases hscript

/-- When all gets have come to their end, the tile was read once. -/
theorem Populating.of_isOver [Nonempty ι] (hover : crowd.IsOver) :
    reads crowd.state = before + 1 ∧ ∀ party, crowd.scripts party = .done (.ok (some payload)) := by
  have hfinished : ∀ party, place party = .finished := by
    intro party
    obtain ⟨answer, hanswer⟩ := hover party
    exact h.of_done hanswer
  refine ⟨?_, fun party => (h.scripts party).trans (congrArg _ (hfinished party))⟩
  have hallows := h.allows (Classical.arbitrary ι)
  rw [hfinished] at hallows
  rw [h.reads]
  cases phase with
  | cold => cases hallows
  | loaded => cases hallows
  | warm => rfl

/-- Not all gets that are left wait: whoever has the lock does not. -/
theorem Populating.over_of_idle (hkeys : ∀ party, (requests party).key = key) (hidle : ∀ party, crowd.IsIdle party) :
    crowd.IsOver := by
  intro party
  rcases (isIdle_iff_of_script (h.scripts party)).mp (hidle party) with hfinished | ⟨-, hheld⟩
  · exact ⟨_, (h.scripts party).trans (congrArg _ hfinished)⟩
  · obtain ⟨holder, hholder⟩ := Option.ne_none_iff_exists'.mp hheld
    rw [hkeys] at hholder
    have hinside := (h.holder holder).mpr hholder
    rcases (isIdle_iff_of_script (h.scripts holder)).mp (hidle holder) with hplace | ⟨hplace, -⟩
    · rw [hplace] at hinside
      cases hinside
    · rw [hplace] at hinside
      cases hinside

/-- The turn of a get that does not wait. -/
theorem Populating.take [DecidableEq ι] (hstore : Stocked cache store key payload stocked reads)
    (hkeys : ∀ party, (requests party).key = key) {party : ι} (hmoves : ¬crowd.IsIdle party) :
    Populating cache store key payload stocked reads requests before (crowd.take party)
      (Function.update place party ((place party).next phase.isWarm)) (phase.next (place party)) := by
  have hinside := h.holder party
  -- whoever takes the lock finds it free
  have hfree : place party = .missed → crowd.holder (lockName key) = none := by
    intro hmissed
    simpa [isIdle_iff_of_script (h.scripts party), hmissed, hkeys] using hmoves
  have hothers : ∀ other, other ≠ party → (place party).isInside = true → (place other).isInside = false := by
    intro other hne hhas
    refine Bool.eq_false_of_not_eq_true fun hother => hne ?_
    exact Option.some.inj (((h.holder other).mp hother).symm.trans (hinside.mp hhas))
  obtain ⟨hstocked, hroom, hcached, hreads⟩ :=
    Shows.change hstore (hkeys party) (h.allows party) ⟨h.stocked, h.room, h.cached, h.reads⟩
  rw [take_of_script hstore (hkeys party) (h.scripts party) hmoves h.stocked h.cached]
  refine ⟨fun other => ?_, fun other => ?_, fun other => ?_, fun hnext => ?_, hstocked, hroom, hcached, hreads⟩
  · dsimp only
    by_cases hother : other = party
    · rw [hother, Function.update_self, Function.update_self]
    · rw [Function.update_of_ne hother, Function.update_of_ne hother]
      exact h.scripts other
  · dsimp only
    rw [Function.update_self]
    by_cases hother : other = party
    · rw [hother, Function.update_self]
      exact Place.isInside_next hinside
    · rw [Function.update_of_ne hother, Place.holderAfter_other hother hinside hfree]
      exact h.holder other
  · by_cases hother : other = party
    · rw [hother, Function.update_self]
      exact Phase.allows_next (h.allows party) fun hloaded hmissed => h.held hloaded (hfree hmissed)
    · rw [Function.update_of_ne hother]
      exact Phase.allows_other (h.allows party) (h.allows other) (hothers other hother)
  · dsimp only
    rw [Function.update_self]
    rcases Phase.of_next_loaded (h.allows party) hnext with hloading | hmissed | ⟨hloaded, hstart⟩
    · rw [hloading, Place.holderAfter, hinside.mp (by rw [hloading]; rfl)]
      exact Option.some_ne_none party
    · rw [hmissed]
      exact Option.some_ne_none party
    · rw [hstart]
      exact h.held hloaded

omit h in
/-- The gets come closer to their end, with the steps that are left to all of them. -/
theorem advances_populating [Fintype ι] [DecidableEq ι] (hstore : Stocked cache store key payload stocked reads)
    (hkeys : ∀ party, (requests party).key = key) (before : Nat) :
    Crowd.Advances fun (crowd : Crowd ι σ (Option Payload)) left => ∃ place phase,
      Populating cache store key payload stocked reads requests before crowd place phase ∧
        ∑ party, (place party).left ≤ left where
  take := by
    rintro crowd left party ⟨place, phase, h, hleft⟩ hmoves
    have hunfinished : place party ≠ .finished := fun hfinished =>
      hmoves ((isIdle_iff_of_script (h.scripts party)).mpr (Or.inl hfinished))
    refine ⟨_, ?_, _, _, h.take hstore hkeys hmoves, le_rfl⟩
    refine lt_of_lt_of_le (Finset.sum_lt_sum (fun other _ => ?_) ⟨party, Finset.mem_univ party, ?_⟩) hleft
    · by_cases hother : other = party
      · rw [hother, Function.update_self]
        exact (Place.left_next_lt hunfinished).le
      · rw [Function.update_of_ne hother]
    · rw [Function.update_self]
      exact Place.left_next_lt hunfinished
  ends := by
    rintro crowd left ⟨place, phase, h, -⟩ hidle
    exact h.over_of_idle hkeys hidle

omit h in
/-- What is populated stays so, whatever turns are taken. -/
theorem Populating.follow [DecidableEq ι] (hstore : Stocked cache store key payload stocked reads)
    (hkeys : ∀ party, (requests party).key = key) (turns : List ι)
    (h : Populating cache store key payload stocked reads requests before crowd place phase) :
    ∃ place phase, Populating cache store key payload stocked reads requests before (crowd.follow turns) place phase := by
  induction turns generalizing crowd place phase with
  | nil => exact ⟨place, phase, h⟩
  | cons party turns ih =>
    by_cases hidle : crowd.IsIdle party
    · rw [Crowd.follow, List.foldl_cons, Crowd.take_of_isIdle hidle]
      exact ih h
    · exact ih (h.take hstore hkeys hidle)

end Many

/-- Any number of gets of one tile that is in the store, fits into the cache and is not cached, with locks that exclude each
other: taken one right after the other their steps are the gets. In whatever turns the steps are taken, when all gets have come
to their end the tile was read from the store once, and every get has found it; and they do come to their end, when each has had
its turn in six times as many rounds as there are gets, whatever turns went before. -/
theorem loaded_once {key : TileKey} {payload : Payload} {stocked : σ → Prop} {reads : σ → Nat}
    (hstore : Stocked cache store key payload stocked reads) {count : Nat} (hcount : 0 < count) (requests : Fin count → Tile)
    (hkeys : ∀ party, (requests party).key = key) {state : σ} (hstocked : stocked state)
    (hroom : payload.size ≤ (cache.read state).settings.capacity) (hcold : (cache.read state).payload? key = none) :
    let crowd := Crowd.gathered (fun party => getScript cache store (requests party)) state
    (∀ (locks : Locks σ), locks.Reliable → ∀ party, (crowd.scripts party).atOnce locks =
      CacheAside.get cache (some locks) store (requests party)) ∧
      (∀ turns : List (Fin count), (crowd.follow turns).IsOver → reads (crowd.follow turns).state = reads state + 1 ∧
        ∀ party, (crowd.follow turns).scripts party = .done (.ok (some payload))) ∧
      ∀ (turns : List (Fin count)) (rounds : List (List (Fin count))), (∀ round ∈ rounds, ∀ party, party ∈ round) →
        6 * count ≤ rounds.length → (crowd.follow (turns ++ rounds.flatten)).IsOver := by
  intro crowd
  have hstart : Populating cache store key payload stocked reads requests (reads state) crowd (fun _ => .start) .cold :=
    populating_gathered hstocked hroom hcold
  have : Nonempty (Fin count) := ⟨⟨0, hcount⟩⟩
  refine ⟨fun locks hlocks party => atOnce_getScript hlocks cache store (requests party), fun turns hover => ?_,
    fun turns rounds hfair hlong => ?_⟩
  · obtain ⟨place, phase, h⟩ := hstart.follow hstore hkeys turns
    exact h.of_isOver hover
  · obtain ⟨place, phase, h⟩ := hstart.follow hstore hkeys turns
    rw [Crowd.follow_append]
    refine (advances_populating hstore hkeys (reads state)).isOver rounds hfair hlong ⟨place, phase, h, ?_⟩
    have hsum := Finset.sum_le_card_nsmul Finset.univ (fun party => (place party).left) 6 fun party _ => ?_
    · simpa [Nat.mul_comm] using hsum
    · cases place party <;> decide

/-- Three gets of a tile of five bytes: it is read once. -/
theorem loaded_once_by_three :
    let cache := (Depot.cacheCell "cache").inside .whole
    let store := (StoreTree.resident "tiles").tileStore .whole DepotPlan.unheld
    let crowd := Crowd.gathered (fun _ : Fin 3 => getScript cache store (Sample.request "roads" 1 2)) Sample.coldDepot
    let rounds := List.replicate 18 [(0 : Fin 3), 1, 2]
    (crowd.follow rounds.flatten).IsOver ∧
      (Depot.cacheView "cache" "tiles" (crowd.follow rounds.flatten).state).2.reads =
        (Depot.cacheView "cache" "tiles" Sample.coldDepot).2.reads + 1 ∧
      ∀ party, (crowd.follow rounds.flatten).scripts party = .done (.ok (some ⟨⟨Array.replicate 5 0⟩, 0⟩)) := by
  intro cache store crowd rounds
  have hseen : SeenBy (Depot.cacheView "cache" "tiles") cache store := ⟨Depot.seen_cache _ _, Depot.seen_backing _ _⟩
  have hstocked : (Depot.cacheView "cache" "tiles" Sample.coldDepot).2.tiles[(Sample.request "roads" 1 2).key]? =
      some ⟨⟨Array.replicate 5 0⟩, 0⟩ := rfl
  obtain ⟨-, honce, hover⟩ := loaded_once (hseen.stocked (Sample.request "roads" 1 2).key ⟨⟨Array.replicate 5 0⟩, 0⟩)
    (by decide : 0 < 3) (fun _ => Sample.request "roads" 1 2) (fun _ => rfl) hstocked (by decide +kernel) (by decide +kernel)
  have hfair : ∀ round ∈ rounds, ∀ party : Fin 3, party ∈ round := by
    intro round hround
    rw [List.eq_of_mem_replicate hround]
    decide
  have hlong : 6 * 3 ≤ rounds.length := List.length_replicate.ge
  clear_value rounds
  have hends := hover [] rounds hfair hlong
  rw [List.nil_append] at hends
  exact ⟨hends, honce _ hends⟩

end TileDepot.CacheAside
