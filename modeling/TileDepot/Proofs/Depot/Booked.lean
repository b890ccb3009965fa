import TileDepot.Proofs.Depot.Requests
import TileDepot.Proofs.Sweeps

/-!
# Invariants of a depot

An upheld invariant of tiles and ledger is one of the whole depot: every admissible request leaves a depot up to date that
was so before. Events are heard after the store has changed, so that on the way through an operation the ledger is behind;
`Depot.Booked` says which sizes it is up to date with.
-/

namespace TileDepot

open Run (Agree)

/-- What is upheld in a depot: something about its accountant, and something about its tiles and its ledger. -/
structure Upkeep (table : CoverageTable) where
  rounded : Nat → Nat
  fits : Accountant → Prop
  holds : Sizes → Ledger → Prop
  rounded_eq : ∀ {accountant}, fits accountant → accountant.rounded = rounded
  fits_hear : ∀ {accountant} event now books, fits accountant → fits (accountant.hear event now books).1
  upheld : Upheld table rounded holds

/-- An invariant that is upheld, in a depot whose accountant may come to have other quotas but not other settings. -/
def Upkeep.ofUpheld {table : CoverageTable} {invariant : Sizes → Ledger → Prop} (accountant : Accountant)
    (upheld : Upheld table accountant.rounded invariant) : Upkeep table where
  rounded := accountant.rounded
  fits other := other.settings = accountant.settings
  holds := invariant
  rounded_eq h := by
    funext size
    rw [Accountant.rounded, Accountant.rounded, h]
  fits_hear event now books h := (Accountant.hear_settings _ event now books).trans h
  upheld := upheld

/-- A way to record usage that makes no difference where something is upheld. -/
def Upkeep.Blind {table : CoverageTable} (upkeep : Upkeep table) (record : Usage → Int → Int → Usage) : Prop :=
  ∀ {before after : Sizes} {ledger : Ledger} {event : Event} {tile : TileKey}, upkeep.holds before ledger →
    event.Tells before after → event.tile? = some tile → table.covers tile = true →
      record (ledger.usageOf tile.tileSet.id) (event.growth fun _ => 1) (event.growth fun size => upkeep.rounded size) =
        (ledger.usageOf tile.tileSet.id).record (event.growth fun _ => 1) (event.growth fun size => upkeep.rounded size)

/-- Usage that is recorded as it is makes no difference to anything. -/
theorem Upkeep.blind_record {table : CoverageTable} (upkeep : Upkeep table) : upkeep.Blind Usage.record :=
  fun _ _ _ _ => rfl

/-- Something that is upheld also where a store is cleared without a word. -/
def Upkeep.Clears {table : CoverageTable} (upkeep : Upkeep table) : Prop :=
  ∀ {sizes : Sizes} {ledger : Ledger}, upkeep.holds sizes ledger → upkeep.holds ∅ ledger

/-- No admissible call adds a listener or removes one. -/
theorem StoreCall.Admissible.not_about_listeners {table : CoverageTable} {call : StoreCall} (h : call.Admissible table) :
    call.isAboutListeners = false := by
  cases call with
  | addListener | removeListener => exact h.elim
  | get | put | delete | deleteRange | deleteLayer | deleteGridset | deleteParameters | rename | layerExists | parametersOf
    | metadata | putMetadata | clear => rfl

/-- The events of an admissible call are admissible. -/
theorem Resident.answer_admissible {table : CoverageTable} {store store' : Resident} {call : StoreCall} {value : call.Answer}
    {events : List Event} (h : store.answer call = .ok (value, events, store')) (hcall : call.Admissible table) :
    ∀ event ∈ events, event.Admissible table := by
  cases call with
  | put tile =>
    obtain ⟨event, hput, rfl⟩ := answer_put h
    obtain ⟨payload, rfl, -⟩ := put_ok hput
    refine List.forall_mem_singleton.mpr ?_
    split
    · exact hcall
    · exact hcall
  | rename layer target =>
    obtain ⟨-, rfl⟩ := answer_rename h
    split
    · exact List.forall_mem_singleton.mpr hcall
    · exact List.forall_mem_nil _
  | delete key =>
    cases h
    split
    · exact List.forall_mem_nil _
    · exact List.forall_mem_singleton.mpr trivial
  | deleteRange range =>
    cases h
    exact List.forall_mem_map.mpr fun _ _ => trivial
  | deleteLayer | deleteGridset | deleteParameters =>
    cases h
    exact List.forall_mem_singleton.mpr trivial
  | get | layerExists | parametersOf | metadata | putMetadata | addListener | removeListener | clear =>
    cases h
    exact List.forall_mem_nil _

/-! ## Usage recorded in another way -/

section Blind

variable {table : CoverageTable} {upkeep : Upkeep table} {record : Usage → Int → Int → Usage}

/-- Where it makes no difference to the usage of a tile, its books are the same however usage is recorded. -/
theorem Books.recordTilesBy_onState {books : Books} (h : books.atlas.Faithful table) (tile : TileKey) (tiles bytes now : Int)
    (hrecord : table.covers tile = true → record (books.ledger.usageOf tile.tileSet.id) tiles bytes =
      (books.ledger.usageOf tile.tileSet.id).record tiles bytes) :
    (Books.recordTilesBy record tile tiles bytes now).onState books = (Books.recordTiles tile tiles bytes now).onState books := by
  unfold Books.recordTilesBy Books.recordTiles
  cases hlevel : table.levelOf? tile with
  | none =>
    obtain ⟨error, hanswer⟩ := Atlas.answers_pageOf_of_none hlevel now
    obtain ⟨atlas, -, hpage⟩ := Books.onState_atlasCell books h hanswer
    rw [Run.onState_bind_error hpage, Run.onState_bind_error hpage]
  | some level =>
    have hcovers : table.covers tile = true := by simp [CoverageTable.covers, hlevel]
    obtain ⟨atlas, hatlas, hpage⟩ := Books.onState_atlasCell books h (Atlas.answers_pageOf_of_some hlevel now)
    obtain ⟨atlas', -, hslots⟩ := Books.onState_atlasCell { books with atlas } hatlas
      (Atlas.answers_tilesPerPage_of_some hlevel)
    rw [Run.onState_bind_ok hpage, Run.onState_bind_ok hpage]
    refine (Run.onState_bind_ok hslots).trans (Eq.trans ?_ (Run.onState_bind_ok hslots).symm)
    have hsame : books.ledger.addTilesBy record tile.tileSet (tile.pageAt level now) tiles level.tilesPerPage bytes now =
        books.ledger.addTilesBy Usage.record tile.tileSet (tile.pageAt level now) tiles level.tilesPerPage bytes now := by
      rw [Ledger.addTilesBy, hrecord hcovers]
      rfl
    exact congrArg (fun recorded => (Except.ok (), (⟨atlas', recorded.2⟩ : Books))) hsame

/-- An event is heard in the same way where it makes no difference how the usage of its tile set is recorded. -/
theorem Accountant.hearBy_eq (accountant : Accountant) (books : Books) {event : Event} (hatlas : books.atlas.Faithful table)
    (hrecord : ∀ tile, event.tile? = some tile → table.covers tile = true →
      record (books.ledger.usageOf tile.tileSet.id) (event.growth fun _ => 1) (event.growth fun size => accountant.rounded size) =
        (books.ledger.usageOf tile.tileSet.id).record (event.growth fun _ => 1)
          (event.growth fun size => accountant.rounded size)) (now : Int) :
    accountant.hearBy record event now books = accountant.hear event now books := by
  cases event with
  | stored tile size | updated tile size oldSize | deleted tile size =>
    exact congrArg (fun outcome => (accountant, Prod.snd outcome))
      (Books.recordTilesBy_onState hatlas tile _ _ now (hrecord tile rfl))
  | layerDeleted | layerRenamed | gridsetDeleted | parametersDeleted => rfl

end Blind

namespace Depot

/-- A depot whose accountant listens to its only store and has heard of all the tiles given. -/
structure Booked {table : CoverageTable} (upkeep : Upkeep table) (name : String) (sizes : Sizes) (depot : Depot) : Prop where
  loaded : depot.loaded = none
  listeners : (depot.store name).listeners.members = [.accountant]
  accountant : ∃ accountant, depot.accountant = some accountant ∧ upkeep.fits accountant
  atlas : depot.atlas.Faithful table
  holds : upkeep.holds sizes depot.ledger

/-- A depot whose accountant has heard of all the tiles that are stored. -/
def UpToDate {table : CoverageTable} (upkeep : Upkeep table) (name : String) (depot : Depot) : Prop :=
  depot.Booked upkeep name (depot.store name).sizes

/-- A depot whose accountant has heard of some events since: its ledger has heard of them too, and nothing changes but the
books and the accountant, who changes only when all the tiles of a layer go or move at once. -/
structure Heard {table : CoverageTable} (upkeep : Upkeep table) (events : List Event) (depot depot' : Depot) : Prop where
  rest : depot' = { depot with accountant := depot'.accountant, atlas := depot'.atlas, ledger := depot'.ledger }
  ledger : depot'.ledger =
    events.foldl (fun ledger event => ledger.heard table upkeep.rounded event depot.clock.minutes) depot.ledger
  accountant : (∀ event ∈ events, event.tile? ≠ none) → depot'.accountant = depot.accountant

variable {table : CoverageTable} {upkeep : Upkeep table} {name : String} {record : Usage → Int → Int → Usage}

/-! ## Events -/

/-- The accountant that listens hears an event with the books of the depot. -/
theorem hear_eq {depot : Depot} {accountant : Accountant} (h : depot.accountant = some accountant) (event : Event) :
    hear .accountant event depot =
      booksCell.write (accountant.hear event depot.clock.minutes (booksCell.read depot)).2
        { depot with accountant := some (accountant.hear event depot.clock.minutes (booksCell.read depot)).1 } := by
  rw [hear, h]

/-- The same with the usage recorded in a given way. -/
theorem hearBy_eq {depot : Depot} {accountant : Accountant} (h : depot.accountant = some accountant) (event : Event) :
    hearBy record .accountant event depot =
      booksCell.write (accountant.hearBy record event depot.clock.minutes (booksCell.read depot)).2
        { depot with accountant := some (accountant.hearBy record event depot.clock.minutes (booksCell.read depot)).1 } := by
  rw [hearBy, h]

namespace Heard

/-- A depot has heard of nothing since it was as it is. -/
theorem refl (upkeep : Upkeep table) (depot : Depot) : depot.Heard upkeep [] depot := ⟨rfl, rfl, fun _ => rfl⟩

/-- What is heard does not touch the store. -/
theorem store_eq {events : List Event} {depot depot' : Depot} (h : depot.Heard upkeep events depot') (name : String) :
    depot'.store name = depot.store name := by
  rw [h.rest]
  rfl

/-- An event that is heard goes before those that are heard after it. -/
theorem cons {event : Event} {events : List Event} {depot between after : Depot} (h : depot.Heard upkeep [event] between)
    (h' : between.Heard upkeep events after) : depot.Heard upkeep (event :: events) after where
  rest := by rw [h'.rest, h.rest]
  ledger := by
    have hclock : between.clock = depot.clock := by rw [h.rest]
    rw [h'.ledger, h.ledger, hclock]
    rfl
  accountant hevents := by
    rw [h'.accountant fun event hevent => hevents event (List.mem_cons_of_mem _ hevent),
      h.accountant fun other hother => hevents other (List.mem_singleton.mp hother ▸ List.mem_cons_self)]

end Heard

/-- An event heard: the depot is up to date with the sizes after it, if what is upheld outlives the event. -/
theorem Booked.hear {depot : Depot} {before after : Sizes} {event : Event} (h : depot.Booked upkeep name before)
    (htells : event.Tells before after) (hblind : upkeep.Blind record)
    (hholds : ∀ now, upkeep.holds after (depot.ledger.heard table upkeep.rounded event now)) :
    hearBy record .accountant event depot = Depot.hear .accountant event depot ∧
      (Depot.hear .accountant event depot).Booked upkeep name after ∧
      depot.Heard upkeep [event] (Depot.hear .accountant event depot) := by
  obtain ⟨accountant, haccountant, hfits⟩ := h.accountant
  obtain ⟨atlas, hatlas, hbooks⟩ := accountant.hear_books (booksCell.read depot) h.atlas event depot.clock.minutes
  have hrounded := upkeep.rounded_eq hfits
  have hsame := accountant.hearBy_eq (booksCell.read depot) h.atlas
    (fun tile htile hcovers => hrounded ▸ hblind h.holds htells htile hcovers) depot.clock.minutes
  rw [hrounded] at hbooks
  rw [hearBy_eq haccountant, hear_eq haccountant, hsame, hbooks]
  refine ⟨rfl, ?_, rfl, rfl, fun htile => ?_⟩
  · exact ⟨h.loaded, h.listeners, ⟨_, rfl, upkeep.fits_hear _ _ _ hfits⟩, hatlas, hholds _⟩
  · change some (accountant.hear event depot.clock.minutes (booksCell.read depot)).1 = depot.accountant
    rw [haccountant]
    cases event with
    | stored | updated | deleted => rfl
    | layerDeleted | layerRenamed | gridsetDeleted | parametersDeleted => exact absurd rfl (htile _ List.mem_cons_self)

/-- A story heard by the accountant. -/
theorem Booked.tell (record : Usage → Int → Int → Usage) (hblind : upkeep.Blind record) {before after : Sizes}
    {events : List Event} (hstory : Story before events after) : ∀ {depot : Depot}, depot.Booked upkeep name before →
      (∀ event ∈ events, event.Admissible table) →
        events.foldl (fun depot event => hearBy record .accountant event depot) depot =
          events.foldl (fun depot event => Depot.hear .accountant event depot) depot ∧
        (events.foldl (fun depot event => Depot.hear .accountant event depot) depot).Booked upkeep name after ∧
        depot.Heard upkeep events (events.foldl (fun depot event => Depot.hear .accountant event depot) depot) := by
  induction hstory with
  | nil sizes =>
    intro depot h _
    exact ⟨rfl, h, .refl upkeep depot⟩
  | cons first rest ih =>
    intro depot h hadmissible
    obtain ⟨hsame, hbooked, hheard⟩ := h.hear first hblind
      (upkeep.upheld.heard h.holds first (hadmissible _ List.mem_cons_self))
    obtain ⟨hsame', hbooked', hheard'⟩ := ih hbooked fun event hevent => hadmissible event (List.mem_cons_of_mem _ hevent)
    simp only [List.foldl_cons]
    exact ⟨by rw [hsame, hsame'], hbooked', hheard.cons hheard'⟩

/-! ## Calls -/

/-- A store that was put in its place is found there. -/
@[simp] theorem store_write (store : Resident) (depot : Depot) : ((residentCell name).write store depot).store name = store := by
  unfold Depot.store residentCell
  simp

/-- A call that the store answers: the accountant, who listens alone, hears of the events in turn. -/
theorem onState_storeBy_of_ok (record : Usage → Int → Int → Usage) {depot : Depot} {call : StoreCall} {value : call.Answer}
    {events : List Event} {store : Resident} (hanswer : (depot.store name).answer call = .ok (value, events, store))
    (hmembers : store.listeners.members = [.accountant]) :
    (storeBy record name call).onState depot =
      (.ok value, events.foldl (fun depot event => hearBy record .accountant event depot)
        ((residentCell name).write store depot)) := by
  have hcell : ((residentCell name).read depot).answer call = .ok (value, events, store) := hanswer
  unfold storeBy Resident.tileStore
  rw [Run.onState_ofState, hcell]
  simp only [Resident.tell, Roster.notify, hmembers, List.foldl_cons, List.foldl_nil]

/-- A call that the store does not answer changes nothing. -/
theorem onState_storeBy_of_error (record : Usage → Int → Int → Usage) {depot : Depot} {call : StoreCall} {error : Error}
    (hanswer : (depot.store name).answer call = .error error) :
    (storeBy record name call).onState depot = (.error error, depot) := by
  have hcell : ((residentCell name).read depot).answer call = .error error := hanswer
  unfold storeBy Resident.tileStore
  rw [Run.onState_ofState, hcell]

/-- When a store has changed to which the accountant listens, the books are those of the sizes they were up to date with. -/
theorem UpToDate.booked_write {depot : Depot} (h : depot.UpToDate upkeep name) {store : Resident}
    (hmembers : store.listeners.members = [.accountant]) {sizes : Sizes} (hholds : upkeep.holds sizes depot.ledger) :
    ((residentCell name).write store depot).Booked upkeep name sizes :=
  ⟨h.loaded, by rw [store_write]; exact hmembers, h.accountant, h.atlas, hholds⟩

/-- A call that the store answers, in whichever way usage is recorded: the accountant hears of what was done. -/
theorem UpToDate.ask_of_ok {depot : Depot} (h : depot.UpToDate upkeep name) (call : StoreCall) (hcall : call.Admissible table)
    (hclear : call = .clear → upkeep.Clears) {value : call.Answer} {events : List Event} {store : Resident}
    (hanswer : (depot.store name).answer call = .ok (value, events, store)) :
    ∃ depot' : Depot,
      (∀ record, upkeep.Blind record → (storeBy record name call).onState depot = (.ok value, depot')) ∧
      depot'.UpToDate upkeep name ∧ ((residentCell name).write store depot).Heard upkeep events depot' := by
  have hmembers : store.listeners.members = [.accountant] := by
    rw [Resident.listeners_answer hanswer hcall.not_about_listeners, h.listeners]
  have hrun := fun record => onState_storeBy_of_ok record hanswer hmembers
  by_cases hcleared : call = .clear
  · subst hcleared
    cases hanswer
    refine ⟨(residentCell name).write (depot.store name).clear depot, fun record _ => hrun record, ?_, .refl upkeep _⟩
    have hsizes : (depot.store name).clear.sizes = ∅ := by
      refine Std.ExtTreeMap.ext_getElem? fun key => ?_
      rw [Resident.getElem?_sizes]
      simp [Resident.clear]
    rw [UpToDate, store_write, hsizes]
    exact h.booked_write hmembers (hclear rfl h.holds)
  · have htell := fun record hblind =>
      Booked.tell record hblind (Resident.answer_story hanswer hcleared) (h.booked_write hmembers h.holds)
        (Resident.answer_admissible hanswer hcall)
    obtain ⟨-, hafter, hheard⟩ := htell Usage.record upkeep.blind_record
    refine ⟨_, fun record hblind => ?_, ?_, hheard⟩
    · rw [hrun, (htell record hblind).1]
    · rw [UpToDate, hheard.store_eq, store_write]
      exact hafter

/-- Recording usage in another way makes no difference to a call, and the depot stays up to date. -/
theorem agree_ask (hblind : upkeep.Blind record) {call : StoreCall} (hcall : call.Admissible table)
    (hclear : call = .clear → upkeep.Clears) :
    Agree (UpToDate upkeep name) (storeBy Usage.record name call) (storeBy record name call) := by
  intro depot h
  cases hanswer : (depot.store name).answer call with
  | ok outcome =>
    obtain ⟨value, events, store⟩ := outcome
    obtain ⟨depot', hrun, hafter, -⟩ := h.ask_of_ok call hcall hclear hanswer
    rw [hrun record hblind, hrun Usage.record upkeep.blind_record]
    exact ⟨rfl, hafter⟩
  | error error =>
    rw [onState_storeBy_of_error record hanswer, onState_storeBy_of_error Usage.record hanswer]
    exact ⟨rfl, h⟩

end Depot

end TileDepot
