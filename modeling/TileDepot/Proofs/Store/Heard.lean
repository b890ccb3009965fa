import Mathlib.Data.List.Induction
import TileDepot.Proofs.Depot.Requests
import TileDepot.Proofs.Store.Alone

/-!
# What a listener hears

A listener that signs on with a resident store while it has no tiles can keep account of the sizes of all tiles by what it hears:
it applies every event to the sizes it knows. As long as no call says nothing of what it does, the account is exact.
-/

namespace TileDepot

namespace Event

/-- The sizes known to a listener after an event, by what it knew before. -/
def applied (event : Event) (sizes : Sizes) : Sizes :=
  match event with
  | stored tile size | updated tile size _ => sizes.insert tile size
  | deleted tile _ => sizes.erase tile
  | layerRenamed layer target => sizes.foldl (fun moved key size => moved.insert (key.moved layer target) size) ∅
  | event => sizes.filter fun key _ => !event.dooms key.tileSet

/-- The sizes known to a listener after the events that it has heard. -/
def replay (events : List Event) : Sizes := events.foldl (fun sizes event => event.applied sizes) ∅

/-- A tile that is said to be new was not there before, and one that is said to be replaced had the size that is said. -/
def Truthful (event : Event) (before : Sizes) : Prop :=
  match event with
  | stored tile _ => before[tile]? = none
  | updated tile _ oldSize => before[tile]? = some oldSize
  | _ => True

/-- An event that tells what was done is truthful. -/
theorem Tells.truthful {event : Event} {before after : Sizes} (h : event.Tells before after) : event.Truthful before := by
  cases event with
  | stored | updated => exact h.1
  | deleted | layerDeleted | layerRenamed | gridsetDeleted | parametersDeleted => trivial

/-- Sizes are found where their tiles have moved. -/
theorem getElem?_applied_layerRenamed {layer target : String} {sizes : Sizes} (hfree : ∀ key ∈ sizes, key.layer ≠ target)
    (key : TileKey) (size : Nat) : ((layerRenamed layer target).applied sizes)[key]? = some size ↔
      ∃ origin : TileKey, sizes[origin]? = some size ∧ origin.moved layer target = key := by
  let place : TileKey × Nat → TileKey := fun entry => entry.1.moved layer target
  have hfold : (layerRenamed layer target).applied sizes =
      sizes.toList.foldl (fun moved entry => moved.insert (place entry) entry.2) ∅ :=
    Std.ExtTreeMap.foldl_eq_foldl_toList
  have hnodup : (sizes.toList.map place).Nodup := by
    refine List.Nodup.map_on (fun entry hentry other hother heq => ?_) (Table.nodup_toList sizes)
    have hkey := TileKey.moved_inj (hfree _ (Table.mem_iff_exists.mpr ⟨_, Table.mem_toList.mp hentry⟩))
      (hfree _ (Table.mem_iff_exists.mpr ⟨_, Table.mem_toList.mp hother⟩)) heq
    have hvalue := Table.mem_toList.mp hentry
    rw [hkey] at hvalue
    exact Prod.ext hkey (Option.some.inj (hvalue.symm.trans (Table.mem_toList.mp hother)))
  rw [hfold]
  by_cases hplace : ∃ entry ∈ sizes.toList, place entry = key
  · obtain ⟨entry, hentry, rfl⟩ := hplace
    rw [Table.getElem?_foldl_insert_of_mem place Prod.snd sizes.toList ∅ hnodup entry hentry]
    constructor
    · intro heq
      exact ⟨entry.1, (Table.mem_toList.mp hentry).trans heq, rfl⟩
    · rintro ⟨origin, horigin, hmoved⟩
      have hmem : (origin, size) ∈ sizes.toList := Table.mem_toList.mpr horigin
      exact congrArg (some ·.2) (List.inj_on_of_nodup_map hnodup hmem hentry hmoved).symm
  · push Not at hplace
    rw [Table.getElem?_foldl_insert_of_ne place Prod.snd sizes.toList ∅ hplace, Std.ExtTreeMap.getElem?_empty]
    constructor
    · nofun
    · rintro ⟨origin, horigin, hmoved⟩
      exact absurd hmoved (hplace (origin, size) (Table.mem_toList.mpr horigin))

/-- A listener that knew the sizes before an event knows those after it. -/
theorem Tells.applied_eq {event : Event} {before after : Sizes} (h : event.Tells before after) :
    event.applied before = after := by
  cases event with
  | stored | updated | deleted => exact h.2.symm
  | layerDeleted | gridsetDeleted | parametersDeleted => exact h.symm
  | layerRenamed layer target =>
    refine Std.ExtTreeMap.ext_getElem? fun key => Option.ext fun size => ?_
    rw [getElem?_applied_layerRenamed h.1, h.2]

end Event

/-- The events of a story applied to the sizes before give those after. -/
theorem Story.foldl_applied {before after : Sizes} {events : List Event} (h : Story before events after) :
    events.foldl (fun sizes event => event.applied sizes) before = after := by
  induction h with
  | nil => rfl
  | cons first _ ih => rw [List.foldl_cons, first.applied_eq, ih]

namespace Resident

variable {store store' : Resident} {listener : Listener}

/-- A resident store, and the events that one of its listeners has heard. -/
def overheard (listener : Listener) : TileStore (Resident × List Event) :=
  tileStore .first fun member event state => if member = listener then (state.1, state.2 ++ [event]) else state

/-- A listener that is on a roster once hears of every event once, in the order of the events. -/
theorem tell_overheard {roster : Roster Listener} (hroster : roster.members.count listener = 1) (events : List Event)
    (store : Resident) (heard : List Event) :
    tell (fun member event (state : Resident × List Event) => if member = listener then (state.1, state.2 ++ [event]) else state)
      roster events (store, heard) = (store, heard ++ events) := by
  have hnotify : ∀ (members : List Listener) (event : Event) (heard : List Event),
      members.foldl (fun state member => if member = listener then (state.1, state.2 ++ [event]) else state) (store, heard) =
        (store, heard ++ List.replicate (members.count listener) event) := by
    intro members event
    induction members with
    | nil => intro heard; exact congrArg (Prod.mk store) (List.append_nil heard).symm
    | cons member members ih =>
      intro heard
      rw [List.foldl_cons]
      by_cases hmember : member = listener
      · rw [if_pos hmember, ih, hmember, List.count_cons_self, List.replicate_succ, List.append_assoc]
        rfl
      · rw [if_neg hmember, ih, List.count_cons_of_ne hmember]
  induction events generalizing heard with
  | nil => exact congrArg (Prod.mk store) (List.append_nil heard).symm
  | cons event events ih =>
    have hfirst := hnotify roster.members event heard
    rw [hroster, List.replicate_one] at hfirst
    unfold tell Roster.notify at *
    rw [List.foldl_cons, hfirst, ih, List.append_assoc]
    rfl

/-- How often a listener is on the roster changes only with a call that is about it. -/
theorem count_answer {call : StoreCall} {value : call.Answer} {events : List Event}
    (h : store.answer call = .ok (value, events, store')) (hadd : call ≠ .addListener listener)
    (hremove : call ≠ .removeListener listener) :
    store'.listeners.members.count listener = store.listeners.members.count listener := by
  cases hcall : call.isAboutListeners with
  | false => rw [listeners_answer h hcall]
  | true =>
    cases call with
    | addListener other =>
      cases h
      have hne : other ≠ listener := fun heq => hadd (congrArg StoreCall.addListener heq)
      exact List.count_append.trans (congrArg (_ + ·) (List.count_singleton.trans (if_neg (mt beq_iff_eq.mp hne))))
    | removeListener other =>
      cases h
      have hne : listener ≠ other := fun heq => hremove (congrArg StoreCall.removeListener heq.symm)
      exact List.count_filter (bne_iff_ne.mpr hne)
    | get | put | delete | deleteRange | deleteLayer | deleteGridset | deleteParameters | rename | layerExists | parametersOf
      | metadata | putMetadata | clear => cases hcall

/-- No call says of a tile that it is new, or what it replaces, unless it is so. -/
theorem answer_truthful {call : StoreCall} {value : call.Answer} {events : List Event}
    (h : store.answer call = .ok (value, events, store')) : ∀ event ∈ events, event.Truthful store.sizes := by
  cases call with
  | put tile =>
    obtain ⟨event, hput, rfl⟩ := answer_put h
    exact List.forall_mem_singleton.mpr (put_tells hput).truthful
  | rename layer target =>
    obtain ⟨-, rfl⟩ := answer_rename h
    split
    · exact List.forall_mem_singleton.mpr trivial
    · exact List.forall_mem_nil _
  | delete key =>
    cases h
    split
    · exact List.forall_mem_nil _
    · exact List.forall_mem_singleton.mpr trivial
  | deleteRange range =>
    cases h
    exact List.forall_mem_map.mpr fun _ _ => trivial
  | deleteLayer | deleteGridset | deleteParameters =>
    cases h
    exact List.forall_mem_singleton.mpr trivial
  | get | layerExists | parametersOf | metadata | putMetadata | addListener | removeListener | clear =>
    cases h
    exact List.forall_mem_nil _

/-- What a call does to a store, and what a listener hears of it. -/
theorem onState_overheard {call : StoreCall} (heard : List Event) (hadd : call ≠ .addListener listener)
    (hremove : call ≠ .removeListener listener) (hlistener : store.listeners.members.count listener = 1) :
    (overheard listener call).onState (store, heard) = match store.answer call with
      | .error error => (.error error, store, heard)
      | .ok (value, events, store') => (.ok value, store', heard ++ events) := by
  unfold overheard tileStore
  rw [Run.onState_ofState, show Cell.first.read (store, heard) = store from rfl]
  cases hanswer : store.answer call with
  | error error => rfl
  | ok outcome =>
    obtain ⟨value, events, store'⟩ := outcome
    have hcount := (count_answer hanswer hadd hremove).trans hlistener
    exact congrArg (Prod.mk _) (tell_overheard hcount events store' heard)

/-- What one call comes to that leaves a listener on the roster: the listener hears nothing that is not so, and it hears the whole
story, unless the store is cleared, which it hears nothing of. -/
theorem overheard_step {call : StoreCall} (heard : List Event) (hadd : call ≠ .addListener listener)
    (hremove : call ≠ .removeListener listener) (hlistener : store.listeners.members.count listener = 1) :
    let next := ((overheard listener call).onState (store, heard)).2
    next.1.listeners.members.count listener = 1 ∧ ∃ events : List Event, next.2 = heard ++ events ∧
      (∀ event ∈ events, event.Truthful store.sizes) ∧ (call ≠ .clear → Story store.sizes events next.1.sizes) ∧
      (call = .clear → events = [] ∧ next.1.tiles = ∅) := by
  dsimp only
  rw [onState_overheard heard hadd hremove hlistener]
  cases hanswer : store.answer call with
  | error error =>
    refine ⟨hlistener, [], (List.append_nil heard).symm, fun _ hevent => absurd hevent List.not_mem_nil, fun _ => .nil _, ?_⟩
    rintro rfl
    cases hanswer
  | ok outcome =>
    obtain ⟨value, events, store'⟩ := outcome
    refine ⟨(count_answer hanswer hadd hremove).trans hlistener, events, rfl, answer_truthful hanswer, answer_story hanswer, ?_⟩
    rintro rfl
    cases hanswer
    exact ⟨rfl, rfl⟩

theorem sizes_eq_empty_iff : store.sizes = ∅ ↔ store.tiles = ∅ := by
  rw [Std.ExtTreeMap.eq_empty_iff_forall_not_mem, Std.ExtTreeMap.eq_empty_iff_forall_not_mem]
  exact forall_congr' fun key => not_congr mem_sizes

/-- A listener whose account is exact has an exact one after a call too, unless tiles are cleared that the store had. -/
theorem replay_step_iff {call : StoreCall} {heard : List Event} (hadd : call ≠ .addListener listener)
    (hremove : call ≠ .removeListener listener) (hlistener : store.listeners.members.count listener = 1)
    (hexact : Event.replay heard = store.sizes) :
    let next := ((overheard listener call).onState (store, heard)).2
    Event.replay next.2 = next.1.sizes ↔ (call = .clear → store.tiles = ∅) := by
  obtain ⟨-, events, hheard, -, hstory, hclear⟩ := overheard_step heard hadd hremove hlistener
  dsimp only
  rw [hheard, Event.replay, List.foldl_append]
  change events.foldl _ (Event.replay heard) = _ ↔ _
  rw [hexact]
  by_cases hcall : call = .clear
  · obtain ⟨rfl, hempty⟩ := hclear hcall
    rw [sizes_eq_empty_iff.mpr hempty, imp_iff_right hcall]
    exact sizes_eq_empty_iff
  · exact iff_of_true (hstory hcall).foldl_applied fun heq => absurd heq hcall

/-- A listener stays on the roster as long as no call is about it. -/
theorem count_serve {calls : List StoreCall} (hcalls : ∀ call ∈ calls, call ≠ .addListener listener ∧
    call ≠ .removeListener listener) (heard : List Event) (hlistener : store.listeners.members.count listener = 1) :
    ((overheard listener).serve calls (store, heard)).2.1.listeners.members.count listener = 1 := by
  refine TileStore.serve_keeps (fun state : Resident × List Event => state.1.listeners.members.count listener = 1)
    (fun call hcall state hstate => ?_) hlistener
  exact (overheard_step state.2 (hcalls call hcall).1 (hcalls call hcall).2 hstate).1

/-- Whatever calls a store serves with which a listener has signed on while it had no tiles: what the listener hears of a tile
that is new or replaced is so, and what it has heard gives the sizes of all tiles at every moment exactly if the store is never
cleared while it has tiles. -/
theorem heard_exact_iff (listener : Listener) (store : Resident) (htiles : store.tiles = ∅)
    (hnew : listener ∉ store.listeners.members) (calls : List StoreCall)
    (hcalls : ∀ call ∈ calls, call ≠ .addListener listener ∧ call ≠ .removeListener listener) :
    let after := fun done : List StoreCall => ((overheard listener).serve (.addListener listener :: done) (store, [])).2
    (∀ (done : List StoreCall) (call : StoreCall), done ++ [call] <+: calls →
      ∃ events : List Event, (after (done ++ [call])).2 = (after done).2 ++ events ∧
        ∀ event ∈ events, event.Truthful (after done).1.sizes) ∧
    ((∀ done : List StoreCall, done <+: calls → Event.replay (after done).2 = (after done).1.sizes) ↔
      ∀ done : List StoreCall, done ++ [.clear] <+: calls → (after done).1.tiles = ∅) := by
  intro after
  have hafter : ∀ (done : List StoreCall) (call : StoreCall),
      after (done ++ [call]) = ((overheard listener call).onState (after done)).2 :=
    fun done call => (overheard listener).serve_append (.addListener listener :: done) [call] (store, [])
  have hstart : (after []).1.listeners.members.count listener = 1 := by
    change (store.listeners.members ++ [listener]).count listener = 1
    rw [List.count_append, List.count_eq_zero.mpr hnew, List.count_singleton_self]
  have hlistener : ∀ (done : List StoreCall) (call : StoreCall), done ++ [call] <+: calls → done <+: calls ∧
      call ≠ .addListener listener ∧ call ≠ .removeListener listener ∧ (after done).1.listeners.members.count listener = 1 := by
    intro done call hpre
    have hdone := (List.prefix_append done [call]).trans hpre
    obtain ⟨hadd, hremove⟩ := hcalls call (hpre.subset (List.mem_append_right done List.mem_cons_self))
    exact ⟨hdone, hadd, hremove, count_serve (fun call hmem => hcalls call (hdone.subset hmem)) _ hstart⟩
  refine ⟨fun done call hpre => ?_, fun hexact done hpre => ?_, fun hroomy done => ?_⟩
  · obtain ⟨-, hadd, hremove, hcount⟩ := hlistener done call hpre
    obtain ⟨-, events, hheard, htruthful, -⟩ := overheard_step (after done).2 hadd hremove hcount
    exact ⟨events, hafter done call ▸ hheard, htruthful⟩
  · obtain ⟨hdone, hadd, hremove, hcount⟩ := hlistener done .clear hpre
    have hnext := hexact _ hpre
    rw [hafter] at hnext
    exact (replay_step_iff hadd hremove hcount (hexact done hdone)).mp hnext rfl
  · induction done using List.reverseRecOn with
    | nil => exact fun _ => (sizes_eq_empty_iff.mpr htiles).symm
    | append_singleton done call ih =>
      intro hpre
      obtain ⟨hdone, hadd, hremove, hcount⟩ := hlistener done call hpre
      rw [hafter]
      exact (replay_step_iff hadd hremove hcount (ih hdone)).mpr fun hcall => hroomy done (hcall ▸ hpre)

/-- A tile is put, replaced, moved with its layer and deleted, and then the store is cleared: at every moment, what was heard
gives the sizes of all tiles. -/
theorem heard_exact_through_rename :
    let listener := Listener.scribe "usage"
    let after := fun done : List StoreCall => ((overheard listener).serve (.addListener listener :: done) (.empty, [])).2
    let calls := [.put (Sample.tile "roads" 1 2 5), .put (Sample.tile "roads" 1 2 7), .rename "roads" "streets",
      .delete (Sample.request "streets" 1 2).key]
    (after calls).2.length = 4 ∧
      ∀ done : List StoreCall, done <+: calls ++ [.clear] → Event.replay (after done).2 = (after done).1.sizes := by
  intro listener after calls
  have hcalls : ∀ call ∈ calls ++ [.clear], call ≠ .addListener listener ∧ call ≠ .removeListener listener := by
    simp only [calls, List.cons_append, List.nil_append, List.forall_mem_cons, ne_eq, reduceCtorEq, not_false_eq_true,
      and_self, true_and]
    exact fun call hcall => absurd hcall List.not_mem_nil
  have hclear : StoreCall.clear ∉ calls := by
    simp only [calls, List.mem_cons, List.not_mem_nil, reduceCtorEq, or_self, not_false_eq_true]
  have hempty : (after calls).1.tiles.isEmpty := by decide +kernel
  refine ⟨by decide +kernel, (heard_exact_iff listener .empty rfl List.not_mem_nil _ hcalls).2.mpr fun done hpre => ?_⟩
  rcases List.prefix_concat_iff.mp hpre with heq | hpre
  · rw [List.append_cancel_right heq]
    exact Std.ExtTreeMap.isEmpty_iff.mp hempty
  · exact absurd (hpre.subset (List.mem_append_right done List.mem_cons_self)) hclear

/-- When a store is cleared, its listeners still know the tiles that it had. -/
theorem cleared_unheard :
    let listener := Listener.scribe "usage"
    let after := ((overheard listener).serve [.addListener listener, .put (Sample.tile "roads" 1 2 5), .clear] (.empty, [])).2
    after.1.tiles = ∅ ∧ (Event.replay after.2)[(Sample.request "roads" 1 2).key]? = some 5 ∧
      Event.replay after.2 ≠ after.1.sizes := by
  intro listener after
  have hheard : (Event.replay after.2)[(Sample.request "roads" 1 2).key]? = some 5 := by decide +kernel
  refine ⟨rfl, hheard, fun heq => ?_⟩
  rw [heq] at hheard
  cases hheard

end Resident

end TileDepot
