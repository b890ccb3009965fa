import TileDepot.Proofs.Coverage
import TileDepot.Proofs.Run

/-!
# What an atlas answers

As long as the coverage table stays what it is, it makes no difference which pyramids an atlas has drawn already: a faithful
atlas answers every question as the table does, and it stays faithful.
-/

namespace TileDepot

/-- The page of a tile in a level, created at a minute. -/
def TileKey.pageAt (key : TileKey) (level : Level) (now : Int) : Page :=
  .ofIndex key.tileSet.id ⟨(level.pageOf key.x key.y).1, (level.pageOf key.x key.y).2, key.z.toNat⟩ now

@[simp] theorem TileKey.key_pageAt (key : TileKey) (level : Level) (now : Int) :
    (key.pageAt level now).key = key.pageIn level := rfl

namespace Atlas

/-- An atlas of a table in which every pyramid has been drawn as the table gives it. -/
structure Faithful (table : CoverageTable) (atlas : Atlas) : Prop where
  table_eq : atlas.table = table
  drawn_eq : ∀ {layer gridset pyramid}, atlas.drawn? layer gridset = some pyramid → table.draw layer gridset = .ok pyramid

/-- A run on an atlas that gives the same answer whatever pyramids of a table have been drawn. -/
def Answers {α : Type} (table : CoverageTable) (run : Run Atlas α) (answer : Except Error α) : Prop :=
  ∀ atlas : Atlas, atlas.Faithful table → (run.onState atlas).1 = answer ∧ (run.onState atlas).2.Faithful table

variable {α β : Type} {table : CoverageTable}

/-- An atlas in which nothing has been drawn yet is faithful. -/
theorem faithful_ofTable (table : CoverageTable) : (ofTable table).Faithful table :=
  ⟨rfl, fun h => by simp [drawn?, ofTable] at h⟩

/-- A pyramid that is kept is found under its layer and gridset, and the others stay where they are. -/
theorem drawn?_keep (atlas : Atlas) (layer gridset layer' gridset' : String) (pyramid : Pyramid) :
    (atlas.keep layer gridset pyramid).drawn? layer' gridset' =
      if layer = layer' ∧ gridset = gridset' then some pyramid else atlas.drawn? layer' gridset' := by
  unfold drawn? keep
  simp only [Table.getElem?_insert]
  by_cases hlayer : layer = layer'
  · subst hlayer
    rw [if_pos rfl, Option.bind_some, Table.getElem?_insert, Std.ExtTreeMap.getD_eq_getD_getElem?]
    by_cases hgridset : gridset = gridset'
    · simp [hgridset]
    · cases atlas.drawn[layer]? <;> simp [hgridset]
  · simp [hlayer]

/-- A pyramid that the table gives may be kept. -/
theorem Faithful.keep {atlas : Atlas} (h : atlas.Faithful table) {layer gridset : String} {pyramid : Pyramid}
    (hdraw : table.draw layer gridset = .ok pyramid) : (atlas.keep layer gridset pyramid).Faithful table := by
  refine ⟨h.table_eq, fun {layer' gridset' pyramid'} hdrawn => ?_⟩
  rw [drawn?_keep] at hdrawn
  split at hdrawn
  · rename_i hsame
    obtain ⟨rfl, rfl⟩ := hsame
    rw [hdraw, Option.some.inj hdrawn]
  · exact h.drawn_eq hdrawn

/-- Pyramids may be forgotten. -/
theorem Faithful.forget {atlas : Atlas} (h : atlas.Faithful table) (layer : String) : (atlas.forget layer).Faithful table := by
  refine ⟨h.table_eq, fun {layer' gridset' pyramid'} hdrawn => h.drawn_eq ?_⟩
  rw [← hdrawn]
  unfold drawn? Atlas.forget at hdrawn ⊢
  simp only [Table.getElem?_erase] at hdrawn ⊢
  split at hdrawn
  · simp at hdrawn
  · rename_i hlayer
    rw [if_neg hlayer]

/-! ## Answers -/

/-- To give an answer without looking at the atlas leaves it faithful. -/
theorem answers_result (answer : Except Error α) : Answers table (Run.result answer) answer :=
  fun _ h => ⟨rfl, h⟩

/-- To give a value without looking at the atlas leaves it faithful. -/
theorem answers_pure (answer : α) : Answers table (pure answer) (.ok answer) :=
  fun _ h => ⟨rfl, h⟩

/-- After an answer goes on what is made of it. -/
theorem Answers.bind {run : Run Atlas α} {next : α → Run Atlas β} {answer : Except Error α} {after : α → Except Error β}
    (h : Answers table run answer) (hnext : ∀ value, answer = .ok value → Answers table (next value) (after value)) :
    Answers table (run >>= next) (answer >>= after) := by
  intro atlas hatlas
  obtain ⟨hanswer, hafter⟩ := h atlas hatlas
  rw [Run.onState_bind]
  rcases hrun : run.onState atlas with ⟨error | value, atlas'⟩
  · rw [hrun] at hanswer hafter
    subst hanswer
    exact ⟨rfl, hafter⟩
  · rw [hrun] at hanswer hafter
    subst hanswer
    exact hnext value rfl atlas' hafter

/-- The pyramid of a layer in a gridset is the one that can be drawn from the table, whether it has been drawn before or not. -/
theorem answers_pyramid (layer gridset : String) : Answers table (pyramid layer gridset) (table.draw layer gridset) := by
  intro atlas h
  rw [pyramid, Run.onState_ofState]
  cases hdrawn : atlas.drawn? layer gridset with
  | some pyramid => exact ⟨(h.drawn_eq hdrawn).symm, h⟩
  | none =>
    have hdraw : atlas.draw layer gridset = table.draw layer gridset := by
      rw [← h.table_eq]
      rfl
    simp only [hdraw]
    cases hnew : table.draw layer gridset with
    | ok pyramid => exact ⟨rfl, h.keep hnew⟩
    | error error => exact ⟨rfl, h⟩

/-- A question about the pyramid of a tile set is answered by the pyramid that the table gives. -/
theorem answers_ofPyramid (set : TileSet) (question : Pyramid → Except Error α) :
    Answers table (pyramidOf set >>= fun pyramid => Run.result (question pyramid))
      (table.draw set.layer set.gridset >>= question) :=
  (answers_pyramid set.layer set.gridset).bind fun pyramid _ => answers_result (question pyramid)

/-- The rectangle of a page is that of the pyramid drawn from the table. -/
theorem answers_areaOf (set : TileSet) (page : Page) :
    Answers table (areaOf set page) (table.draw set.layer set.gridset >>= fun pyramid => pyramid.areaOf page.index) :=
  answers_ofPyramid set _

/-- How many tiles a full page has is what the pyramid drawn from the table says. -/
theorem answers_tilesPerPage (table : CoverageTable) (set : TileSet) (zoom : Nat) :
    Answers table (tilesPerPage set zoom) (table.draw set.layer set.gridset >>= fun pyramid => pyramid.tilesPerPage zoom) :=
  answers_ofPyramid set _

/-- The pages of a tile set are those of the pyramid drawn from the table. -/
theorem answers_pagesOf (set : TileSet) (now : Int) :
    Answers table (pagesOf set now)
      (table.draw set.layer set.gridset >>= fun pyramid => .ok (pyramid.pages.map fun index => .ofIndex set.id index now)) :=
  (answers_pyramid set.layer set.gridset).bind fun _ _ => answers_pure _

/-- The page of a tile, at a zoom that a word of 32 bits holds, is that of the pyramid drawn from the table. -/
theorem answers_pageOf (table : CoverageTable) (set : TileSet) (x y : Int) {z : Int} (now : Int)
    (hz : ¬(z < 0 ∨ z > Binary64.maxUInt32)) :
    Answers table (pageOf set x y z now) (table.draw set.layer set.gridset >>= fun pyramid =>
      pyramid.pageOf x y z.toNat >>= fun index => .ok (.ofIndex set.id index now)) := by
  unfold pageOf
  rw [if_neg hz]
  exact (answers_pyramid _ _).bind fun _ _ => (answers_result _).bind fun _ _ => answers_pure _

/-- The page of a covered tile. -/
theorem answers_pageOf_of_some {key : TileKey} {level : Level} (h : table.levelOf? key = some level) (now : Int) :
    Answers table (pageOf key.tileSet key.x key.y key.z now) (.ok (key.pageAt level now)) := by
  obtain ⟨pyramid, hdraw, hz, hlevel, hcontains⟩ := CoverageTable.levelOf?_eq_some_iff.mp h
  have hle := CoverageTable.zoom_le_of_levelOf? h
  have hanswers := answers_pageOf table key.tileSet key.x key.y now (show ¬(key.z < 0 ∨ key.z > Binary64.maxUInt32) by omega)
  rw [show table.draw key.tileSet.layer key.tileSet.gridset = .ok pyramid from hdraw] at hanswers
  change Answers table _ (pyramid.pageOf key.x key.y key.z.toNat >>= _) at hanswers
  rwa [Pyramid.pageOf_of_some hlevel hcontains] at hanswers

/-- A tile that is not covered has no page. -/
theorem answers_pageOf_of_none {key : TileKey} (h : table.levelOf? key = none) (now : Int) :
    ∃ error, Answers table (pageOf key.tileSet key.x key.y key.z now) (.error error) := by
  by_cases hz : key.z < 0 ∨ key.z > Binary64.maxUInt32
  · refine ⟨.invalidArgument s!"invalid zoom level {key.z}", ?_⟩
    unfold pageOf
    rw [if_pos hz]
    exact fun atlas hatlas => ⟨rfl, hatlas⟩
  · have hanswers := answers_pageOf table key.tileSet key.x key.y now hz
    unfold CoverageTable.levelOf? at h
    cases hdraw : table.draw key.layer key.gridset with
    | error error =>
      rw [show table.draw key.tileSet.layer key.tileSet.gridset = .error error from hdraw] at hanswers
      exact ⟨error, hanswers⟩
    | ok pyramid =>
      simp only [hdraw, if_neg (not_or.mp hz).1] at h
      obtain ⟨error, hpage⟩ := Pyramid.pageOf_of_none h
      rw [show table.draw key.tileSet.layer key.tileSet.gridset = .ok pyramid from hdraw] at hanswers
      change Answers table _ (pyramid.pageOf key.x key.y key.z.toNat >>= _) at hanswers
      rw [hpage] at hanswers
      exact ⟨error, hanswers⟩

/-- The tiles of a full page at the zoom of a covered tile. -/
theorem answers_tilesPerPage_of_some {key : TileKey} {level : Level} (h : table.levelOf? key = some level) :
    Answers table (tilesPerPage key.tileSet key.z.toNat) (.ok level.tilesPerPage) := by
  obtain ⟨pyramid, hdraw, -, hlevel, -⟩ := CoverageTable.levelOf?_eq_some_iff.mp h
  have hanswers := answers_tilesPerPage table key.tileSet key.z.toNat
  rw [show table.draw key.tileSet.layer key.tileSet.gridset = .ok pyramid from hdraw] at hanswers
  change Answers table _ (pyramid.tilesPerPage key.z.toNat) at hanswers
  rwa [Pyramid.tilesPerPage_of_some hlevel] at hanswers

/-! ## Pyramids drawn -/

/-- An atlas that has drawn the pyramid of a tile set, if the table gives one. -/
def Settled (table : CoverageTable) (set : TileSet) (atlas : Atlas) : Prop :=
  ∀ pyramid, table.draw set.layer set.gridset = .ok pyramid → atlas.drawn? set.layer set.gridset = some pyramid

/-- An atlas after the pyramids of some tile sets have been asked for. -/
structure Draws (table : CoverageTable) (sets : List TileSet) (atlas atlas' : Atlas) : Prop where
  faithful : atlas'.Faithful table
  settled : ∀ set ∈ sets, atlas'.Settled table set
  keeps : ∀ {set : TileSet}, atlas.Settled table set → atlas'.Settled table set
  same : (∀ set ∈ sets, atlas.Settled table set) → atlas' = atlas

/-- Nothing need be drawn for no tile sets. -/
theorem Draws.nil {atlas : Atlas} (h : atlas.Faithful table) : Draws table [] atlas atlas where
  faithful := h
  settled set hset := by cases hset
  keeps := id
  same _ := rfl

/-- What is drawn for some tile sets and then for others is drawn for all of them. -/
theorem Draws.append {sets sets' : List TileSet} {atlas between after : Atlas} (h : Draws table sets atlas between)
    (h' : Draws table sets' between after) : Draws table (sets ++ sets') atlas after := by
  refine ⟨h'.faithful, fun set hset => ?_, fun hset => h'.keeps (h.keeps hset), fun hsettled => ?_⟩
  · rcases List.mem_append.mp hset with hset | hset
    · exact h'.keeps (h.settled set hset)
    · exact h'.settled set hset
  · have hfirst := h.same fun set hset => hsettled set (List.mem_append_left _ hset)
    rw [h'.same fun set hset => h.keeps (hsettled set (List.mem_append_right _ hset)), hfirst]

/-- To ask for the pyramid of a tile set draws that pyramid, unless it has been drawn before or cannot be drawn, and no other.
-/
theorem draws_pyramidOf {atlas : Atlas} (h : atlas.Faithful table) (set : TileSet) :
    Draws table [set] atlas ((pyramidOf set).onState atlas).2 := by
  unfold pyramidOf pyramid
  rw [Run.onState_ofState]
  cases hdrawn : atlas.drawn? set.layer set.gridset with
  | some pyramid =>
    refine ⟨h, fun other hother => ?_, id, fun _ => rfl⟩
    rw [List.mem_singleton.mp hother]
    intro drawn hdraw
    rw [hdrawn, Except.ok.inj ((h.drawn_eq hdrawn).symm.trans hdraw)]
  | none =>
    have htable : atlas.draw set.layer set.gridset = table.draw set.layer set.gridset := by
      rw [← h.table_eq]
      rfl
    simp only [htable]
    cases hdraw : table.draw set.layer set.gridset with
    | error error =>
      refine ⟨h, fun other hother => ?_, id, fun _ => rfl⟩
      rw [List.mem_singleton.mp hother]
      intro drawn hok
      rw [hdraw] at hok
      cases hok
    | ok pyramid =>
      refine ⟨h.keep hdraw, fun other hother => ?_, fun {other} hsettled drawn hok => ?_, fun hsettled => ?_⟩
      · rw [List.mem_singleton.mp hother]
        intro drawn hok
        rw [drawn?_keep, if_pos ⟨rfl, rfl⟩, Except.ok.inj (hdraw.symm.trans hok)]
      · rw [drawn?_keep]
        split
        · rename_i hsame
          rw [← hsame.1, ← hsame.2, hdraw] at hok
          rw [Except.ok.inj hok]
        · exact hsettled drawn hok
      · have hnone := hsettled set (List.mem_singleton_self set) pyramid hdraw
        rw [hdrawn] at hnone
        cases hnone

/-- To list the pages of a tile set is to ask for its pyramid. -/
theorem onState_pagesOf (set : TileSet) (now : Int) (atlas : Atlas) :
    ((pagesOf set now).onState atlas).2 = ((pyramidOf set).onState atlas).2 := by
  unfold pagesOf
  rw [Run.onState_bind]
  rcases (pyramidOf set).onState atlas with ⟨error | pyramid, after⟩ <;> rfl

end Atlas

end TileDepot
