import TileDepot.Proofs.Kept

/-!
# Pages with tiles have fill

A ledger is filled when every page with covered tiles is stored and its fill is at least the part of a full page that these
tiles take. This outlives every event of a store, every hit, the recording of a page as empty when no tile is left on it, and
even tiles that vanish without an event.
-/

namespace TileDepot

/-- A ledger in which the fill of every page is that of its covered tiles, or more. -/
structure Filled (table : CoverageTable) (sizes : Sizes) (ledger : Ledger) : Prop extends Kept sizes ledger where
  inRange : ∀ {key : PageKey} {entry : PageEntry}, ledger.pages[key]? = some entry → entry.stats.InRange
  covers : ∀ {key : TileKey} {level : Level}, key.Plain → table.levelOf? key = some level →
    0 < table.countOn (key.pageIn level) sizes → ∃ entry : PageEntry, ledger.pages[key.pageIn level]? = some entry ∧
      entry.stats.Covers (table.countOn (key.pageIn level) sizes) level.tilesPerPage

namespace CoverageTable

variable {table : CoverageTable} {before after : Sizes} {event : Event}

/-- The tiles on a page grow with the tile of an event, if that is the page of the tile. -/
theorem countOn_tells (table : CoverageTable) {tile : TileKey} (h : event.Tells before after) (htile : event.tile? = some tile)
    (pageKey : PageKey) : table.countOn pageKey after =
      table.countOn pageKey before + if table.pageKeyOf? tile = some pageKey then event.growth fun _ => 1 else 0 :=
  h.weigh_tile htile (fun key => table.pageKeyOf? key = some pageKey) fun _ => 1

/-- A page has as many tiles as before after an event about a tile of another page. -/
theorem countOn_other (htells : event.Tells before after) {tile : TileKey} (htile : event.tile? = some tile) {pageKey : PageKey}
    (hother : table.pageKeyOf? tile ≠ some pageKey) : table.countOn pageKey after = table.countOn pageKey before := by
  rw [table.countOn_tells htells htile, if_neg hother, Int.add_zero]

/-- A page with a tile has a tile. -/
theorem exists_of_countOn_pos {pageKey : PageKey} {sizes : Sizes} (h : 0 < table.countOn pageKey sizes) :
    ∃ key ∈ sizes, table.pageKeyOf? key = some pageKey := by
  obtain ⟨key, size, hkey, hpos⟩ := Table.exists_of_weigh_pos h
  refine ⟨key, Table.mem_iff_exists.mpr ⟨size, hkey⟩, ?_⟩
  by_contra hpage
  rw [if_neg hpage] at hpos
  omega

/-- The page of a stored tile has at least that tile. -/
theorem countOn_pos {key : TileKey} {level : Level} {sizes : Sizes} (hkey : key ∈ sizes)
    (hlevel : table.levelOf? key = some level) : 0 < table.countOn (key.pageIn level) sizes := by
  obtain ⟨size, hsize⟩ := Table.mem_iff_exists.mp hkey
  have hle := Table.le_weigh (fun other _ =>
    if table.pageKeyOf? other = some (key.pageIn level) then (1 : Int) else 0) hsize (fun other _ _ => by split <;> omega)
  rw [if_pos (pageKeyOf?_eq_some_iff.mpr ⟨level, hlevel, rfl⟩)] at hle
  unfold countOn
  omega

end CoverageTable

namespace Filled

variable {table : CoverageTable} {rounded : Nat → Nat} {before after sizes : Sizes} {ledger : Ledger} {event : Event}

/-- An empty ledger is filled when nothing is stored. -/
theorem empty (table : CoverageTable) : Filled table ∅ .empty where
  plain h := by simp at h
  sound := Ledger.sound_empty
  inRange h := by simp [Ledger.empty] at h
  covers _ _ h := by simp [CoverageTable.countOn] at h

/-- Tiles may vanish without an event. -/
theorem without_tiles (h : Filled table sizes ledger) : Filled table ∅ ledger where
  plain h := by simp at h
  sound := h.sound
  inRange := h.inRange
  covers _ _ h := by simp [CoverageTable.countOn] at h

/-- The statistics that a change starts from are in range. -/
theorem inRange_entry (h : Filled table sizes ledger) (page : Page) (now : Int) : (ledger.entry page now).stats.InRange := by
  rw [Ledger.entry, Std.ExtTreeMap.getD_eq_getD_getElem?]
  cases hpage : ledger.pages[page.key]? with
  | none => exact PageStats.inRange_fresh now
  | some entry => exact h.inRange hpage

/-- The statistics that a change starts from cover the tiles of the page, also where there are none yet. -/
theorem covers_entry (h : Filled table sizes ledger) {key : TileKey} {level : Level} (hkey : key.Plain)
    (hlevel : table.levelOf? key = some level) (page : Page) (hpage : page.key = key.pageIn level) (now : Int) :
    (ledger.entry page now).stats.Covers (table.countOn (key.pageIn level) sizes) level.tilesPerPage := by
  by_cases hcount : 0 < table.countOn (key.pageIn level) sizes
  · obtain ⟨entry, hentry, hcovers⟩ := h.covers hkey hlevel hcount
    rw [Ledger.entry, Std.ExtTreeMap.getD_eq_getD_getElem?, hpage, hentry]
    exact hcovers
  · rw [Int.le_antisymm (Int.not_lt.mp hcount) (table.countOn_nonneg _ _)]
    exact (h.inRange_entry page now).covers_zero _

/-- A page that a change of its tiles is recorded for covers them afterwards. -/
theorem covers_recorded (h : Filled table before ledger) (htells : event.Tells before after) {tile : TileKey}
    (htile : event.tile? = some tile) (hplain : tile.Plain) {level : Level} (hlevel : table.levelOf? tile = some level)
    (hafter : ∀ key ∈ after, key.Plain) (now : Int) :
    ((ledger.entry (tile.pageAt level now) now).stats.addTiles (event.growth fun _ => 1) level.tilesPerPage).Covers
      (table.countOn (tile.pageIn level) after) level.tilesPerPage := by
  have hpage : table.pageKeyOf? tile = some (tile.pageIn level) :=
    CoverageTable.pageKeyOf?_eq_some_iff.mpr ⟨level, hlevel, rfl⟩
  have hcount := table.countOn_tells htells htile (tile.pageIn level)
  rw [hpage, if_pos rfl] at hcount
  have hfull := CoverageTable.countOn_le_tilesPerPage hafter hplain hlevel
  rw [hcount] at hfull ⊢
  exact (h.covers_entry hplain hlevel (tile.pageAt level now) rfl now).addTiles (h.inRange_entry _ _) level.tilesPerPage_pos _
    hfull

/-- Events about one tile. -/
theorem heard_tile (h : Filled table before ledger) (htells : event.Tells before after)
    (hadmissible : event.Admissible table) {tile : TileKey} (htile : event.tile? = some tile) (now : Int) :
    Filled table after (ledger.heard table rounded event now) := by
  have hkept := h.toKept.heard rounded htells hadmissible now
  have htilePlain := h.toKept.plain_of_tile htells hadmissible htile
  rw [Ledger.heard_of_tile htile] at hkept ⊢
  unfold Ledger.recorded at hkept ⊢
  cases hlevel : table.levelOf? tile with
  | none =>
    rw [hlevel] at hkept
    refine ⟨hkept, h.inRange, fun {key level} hkey hkeyLevel hpos => ?_⟩
    have hother : table.pageKeyOf? tile ≠ some (key.pageIn level) := by
      rw [CoverageTable.pageKeyOf?, hlevel]
      exact Option.some_ne_none _ ∘ Eq.symm
    rw [CoverageTable.countOn_other htells htile hother] at hpos ⊢
    exact h.covers hkey hkeyLevel hpos
  | some tileLevel =>
    rw [hlevel] at hkept
    refine ⟨hkept, fun {pageKey entry} hentry => ?_, fun {key level} hkey hkeyLevel hpos => ?_⟩
    · rw [Ledger.pages_addTilesBy] at hentry
      split at hentry
      · rw [← Option.some.inj hentry]
        exact (h.inRange_entry _ _).addTiles _ _
      · exact h.inRange hentry
    · rw [Ledger.pages_addTilesBy, TileKey.key_pageAt]
      by_cases hsame : tile.pageIn tileLevel = key.pageIn level
      · obtain ⟨-, -, rfl⟩ := CoverageTable.same_level_of_pageIn hkey htilePlain hkeyLevel hlevel hsame
        rw [if_pos hsame, ← hsame]
        exact ⟨_, rfl, h.covers_recorded htells htile htilePlain hlevel (fun _ => hkept.plain) now⟩
      · have hother : table.pageKeyOf? tile ≠ some (key.pageIn level) := by
          intro heq
          obtain ⟨level', hlevel', hpage⟩ := CoverageTable.pageKeyOf?_eq_some_iff.mp heq
          obtain rfl := Option.some.inj (hlevel.symm.trans hlevel')
          exact hsame hpage
        rw [CoverageTable.countOn_other htells htile hother] at hpos ⊢
        rw [if_neg hsame]
        exact h.covers hkey hkeyLevel hpos

/-- The tiles of a page are dropped all together, or none of them. -/
theorem countOn_drop (h : Filled table before ledger) (doomed : TileSet → Bool) {key : TileKey} {level : Level}
    (hkey : key.Plain) (hlevel : table.levelOf? key = some level) :
    table.countOn (key.pageIn level) (before.filter fun key _ => !doomed key.tileSet) =
      if doomed key.tileSet then 0 else table.countOn (key.pageIn level) before := by
  have hsum : table.countOn (key.pageIn level) (before.filter fun key _ => !doomed key.tileSet) =
      Table.weigh before fun other _ =>
        if table.pageKeyOf? other = some (key.pageIn level) then if doomed key.tileSet then 0 else 1 else 0 := by
    unfold CoverageTable.countOn
    rw [Table.weigh_filter]
    refine Table.weigh_congr fun other size hother => ?_
    by_cases hpage : table.pageKeyOf? other = some (key.pageIn level)
    · have hplain := h.plain (Table.mem_iff_exists.mpr ⟨size, hother⟩)
      rw [(CoverageTable.same_level_of_pageKeyOf? hkey hplain hlevel hpage).1, if_pos hpage, if_pos hpage]
      cases doomed key.tileSet <;> rfl
    · rw [if_neg hpage, if_neg hpage, ite_self]
  rw [hsum]
  cases doomed key.tileSet with
  | true => exact Table.weigh_eq_zero fun _ _ _ => by simp
  | false => rfl

/-- Events about all the tiles of some tile sets. -/
theorem heard_bulk (h : Filled table before ledger) (htells : event.Tells before after)
    (hadmissible : event.Admissible table) (htile : event.tile? = none)
    (hrename : ∀ layer target, event ≠ .layerRenamed layer target) (now : Int) :
    Filled table after (ledger.heard table rounded event now) := by
  have hkept := h.toKept.heard rounded htells hadmissible now
  rw [Ledger.heard_of_bulk htile hrename] at hkept ⊢
  rw [htells.of_bulk htile hrename] at hkept ⊢
  refine ⟨hkept, fun {pageKey entry} hentry => ?_, fun {key level} hkey hlevel hpos => ?_⟩
  · by_cases hid : ledger.Doomed event.dooms pageKey.tileSet
    · rw [Ledger.pages_of_holding _ (Ledger.holding_drop_of_doomed h.sound.keyed _ hid)] at hentry
      cases hentry
    · rw [Ledger.pages_of_holding _ (Ledger.holding_drop_of_not_doomed h.sound.keyed _ hid)] at hentry
      exact h.inRange hentry
  · rw [h.countOn_drop event.dooms hkey hlevel] at hpos ⊢
    cases hdooms : event.dooms key.tileSet with
    | true =>
      rw [hdooms] at hpos
      exact absurd hpos (Int.lt_irrefl 0)
    | false =>
      rw [hdooms] at hpos
      obtain ⟨entry, hentry, hcovers⟩ := h.covers hkey hlevel hpos
      refine ⟨entry, ?_, hcovers⟩
      have hid : ¬ledger.Doomed event.dooms key.tileSet.id := by
        rintro ⟨set, hset, hdoomed⟩
        rw [h.sound.eq_of_id hset hkey.tileSet, hdooms] at hdoomed
        cases hdoomed
      exact (Ledger.pages_of_holding (key.pageIn level) (Ledger.holding_drop_of_not_doomed h.sound.keyed _ hid)).trans hentry

/-! ## Layers renamed -/

section Rename

variable {layer target : String} (h : Filled table before ledger)
  (htells : (Event.layerRenamed layer target).Tells before after) (ht : PlainName target)
  (hcoverage : table.SameCoverage layer target) (hne : layer ≠ target)

include h htells ht hcoverage

/-- A page of a layer without tiles has its tiles from the same page of the layer that was moved there. -/
theorem countOn_renamed_target {origin : TileKey} {level : Level} (horigin : origin.Plain) (hlayer : origin.layer = layer)
    (hlevel : table.levelOf? origin = some level) :
    table.countOn ((origin.renamed target).pageIn level) after = table.countOn (origin.pageIn level) before := by
  subst hlayer
  have hlevel' : table.levelOf? (origin.renamed target) = some level := by rw [hcoverage.levelOf?_renamed, hlevel]
  unfold CoverageTable.countOn
  rw [htells.weigh_moved]
  refine Table.weigh_congr fun key size hkey => ?_
  have hmem : key ∈ before := Table.mem_iff_exists.mpr ⟨size, hkey⟩
  have hplain := h.plain hmem
  have hiff : table.pageKeyOf? (key.moved origin.layer target) = some ((origin.renamed target).pageIn level) ↔
      table.pageKeyOf? key = some (origin.pageIn level) := by
    unfold TileKey.moved
    split
    · rename_i hkeyLayer
      rw [CoverageTable.pageKeyOf?_eq_some_iff, CoverageTable.pageKeyOf?_eq_some_iff]
      rw [show table.levelOf? (key.renamed target) = table.levelOf? key from
        CoverageTable.SameCoverage.levelOf?_renamed (hkeyLayer ▸ hcoverage)]
      have hpages : ∀ level', (key.renamed target).pageIn level' = (origin.renamed target).pageIn level ↔
          key.pageIn level' = origin.pageIn level := by
        intro level'
        simp only [TileKey.pageIn, PageKey.mk.injEq, TileKey.tileSet_renamed]
        refine and_congr_left fun _ => ⟨fun hid => ?_, fun hid => ?_⟩
        · exact congrArg TileSet.id (hplain.tileSet.eq_of_renamed_id horigin.tileSet ht hkeyLayer hid)
        · rw [hplain.tileSet.eq_of_id horigin.tileSet hid]
      simp only [hpages]
    · rename_i hkeyLayer
      constructor
      · intro hpage
        have hsame := (CoverageTable.same_level_of_pageKeyOf? (horigin.renamed ht) hplain hlevel' hpage).1
        exact absurd (congrArg TileSet.layer hsame) (htells.1 key hmem)
      · intro hpage
        have hsame := (CoverageTable.same_level_of_pageKeyOf? horigin hplain hlevel hpage).1
        exact absurd (congrArg TileSet.layer hsame) hkeyLayer
  simp only [hiff]

omit hcoverage in
/-- A page of neither of the two layers has the tiles it had. -/
theorem countOn_renamed_other {key : TileKey} {level : Level} (hkey : key.Plain) (hlayer : key.layer ≠ layer)
    (htarget : key.layer ≠ target) (hlevel : table.levelOf? key = some level) :
    table.countOn (key.pageIn level) after = table.countOn (key.pageIn level) before := by
  unfold CoverageTable.countOn
  rw [htells.weigh_moved]
  refine Table.weigh_congr fun other size hother => ?_
  have hplain := h.plain (Table.mem_iff_exists.mpr ⟨size, hother⟩)
  unfold TileKey.moved
  split
  · rename_i hotherLayer
    rw [if_neg fun hpage => ?_, if_neg fun hpage => ?_]
    · have hsame := (CoverageTable.same_level_of_pageKeyOf? hkey hplain hlevel hpage).1
      exact hlayer ((congrArg TileSet.layer hsame).symm.trans hotherLayer)
    · have hsame := (CoverageTable.same_level_of_pageKeyOf? hkey (hplain.renamed ht) hlevel hpage).1
      exact htarget (congrArg TileSet.layer hsame).symm
  · rfl

include hne

omit htells hcoverage in
/-- The fill of every page is in range after a layer was renamed. -/
theorem inRange_renamed {pageKey : PageKey} {entry : PageEntry}
    (hentry : (ledger.renameLayer layer target).pages[pageKey]? = some entry) : entry.stats.InRange := by
  by_cases htarget : ∃ set : TileSet, ledger.tileSets[set.id]? = some set ∧ set.layer = layer ∧
      pageKey.tileSet = (set.renamed target).id
  · obtain ⟨set, hset, hlayer, hid⟩ := htarget
    have hholding := Ledger.holding_renameLayer_target h.sound ht hne hset hlayer
    rw [← hid] at hholding
    rw [Ledger.pages_of_holding _ hholding] at hentry
    rcases Option.or_eq_some_iff.mp hentry with hmoved | ⟨-, hkept⟩
    · obtain ⟨origin, horigin, rfl⟩ := Option.map_eq_some_iff.mp hmoved
      exact (h.inRange horigin : origin.stats.InRange)
    · exact h.inRange hkept
  by_cases hsource : ∃ set : TileSet, ledger.tileSets[set.id]? = some set ∧ set.layer = layer ∧ pageKey.tileSet = set.id
  · obtain ⟨set, hset, hlayer, hid⟩ := hsource
    have hholding := Ledger.holding_renameLayer_source h.sound ht hne hset hlayer
    rw [← hid] at hholding
    rw [Ledger.pages_of_holding _ hholding] at hentry
    cases hentry
  · have hholding := Ledger.holding_renameLayer_other h.sound ht hne pageKey.tileSet fun set hset hlayer =>
      ⟨fun heq => hsource ⟨set, hset, hlayer, heq⟩, fun heq => htarget ⟨set, hset, hlayer, heq⟩⟩
    rw [Ledger.pages_of_holding _ hholding] at hentry
    exact h.inRange hentry

/-- A page comes with its fill from the same page of the layer that was renamed. -/
theorem covers_renamed_target {origin : TileKey} {level : Level} (horigin : origin.Plain) (hlayer : origin.layer = layer)
    (hlevel : table.levelOf? origin = some level)
    (hpos : 0 < table.countOn ((origin.renamed target).pageIn level) after) :
    ∃ entry, (ledger.renameLayer layer target).pages[(origin.renamed target).pageIn level]? = some entry ∧
      entry.stats.Covers (table.countOn ((origin.renamed target).pageIn level) after) level.tilesPerPage := by
  rw [countOn_renamed_target h htells ht hcoverage horigin hlayer hlevel] at hpos ⊢
  obtain ⟨entry, hentry, hcovers⟩ := h.covers horigin hlevel hpos
  obtain ⟨set, hset⟩ := (h.sound.page_of hentry).2
  obtain rfl := h.sound.eq_of_id hset horigin.tileSet
  have hholding := Ledger.holding_renameLayer_target h.sound ht hne hset hlayer
  refine ⟨Ledger.reassign entry (origin.tileSet.renamed target).id, ?_, hcovers⟩
  rw [Ledger.pages_of_holding ((origin.renamed target).pageIn level) hholding]
  exact Option.or_eq_some_iff.mpr (Or.inl (Option.map_eq_some_iff.mpr ⟨entry, hentry, rfl⟩))

omit hcoverage in
/-- A page of neither of the two layers keeps its fill. -/
theorem covers_renamed_other {key : TileKey} {level : Level} (hkey : key.Plain) (hlayer : key.layer ≠ layer)
    (htarget : key.layer ≠ target) (hlevel : table.levelOf? key = some level)
    (hpos : 0 < table.countOn (key.pageIn level) after) :
    ∃ entry, (ledger.renameLayer layer target).pages[key.pageIn level]? = some entry ∧
      entry.stats.Covers (table.countOn (key.pageIn level) after) level.tilesPerPage := by
  rw [countOn_renamed_other h htells ht hkey hlayer htarget hlevel] at hpos ⊢
  obtain ⟨entry, hentry, hcovers⟩ := h.covers hkey hlevel hpos
  have hholding := Ledger.holding_renameLayer_other h.sound ht hne key.tileSet.id fun set hset hsetLayer => by
    have hset := (h.sound.set_of hset).2
    constructor
    · intro heq
      exact hlayer ((congrArg TileSet.layer (hkey.tileSet.eq_of_id hset heq)).trans hsetLayer)
    · intro heq
      exact htarget (congrArg TileSet.layer (hkey.tileSet.eq_of_id (hset.renamed ht) heq))
  exact ⟨entry, (Ledger.pages_of_holding (key.pageIn level) hholding).trans hentry, hcovers⟩

/-- A ledger stays filled when a layer is renamed to one of the same coverage. -/
theorem heard_rename (now : Int) : Filled table after (ledger.heard table rounded (.layerRenamed layer target) now) := by
  have hkept := h.toKept.heard rounded htells ⟨ht, hcoverage⟩ now
  change Filled table after (ledger.renameLayer layer target)
  refine ⟨hkept, fun {pageKey entry} => inRange_renamed h ht hne, fun {key level} hkey hlevel hpos => ?_⟩
  -- a tile of the page tells which layer the page has come from
  obtain ⟨tile, htile, hpage⟩ := CoverageTable.exists_of_countOn_pos hpos
  obtain ⟨htileSet, -, -⟩ := CoverageTable.same_level_of_pageKeyOf? hkey (hkept.plain htile) hlevel hpage
  obtain ⟨size, hsize⟩ := Table.mem_iff_exists.mp htile
  obtain ⟨origin, horigin, rfl⟩ := (htells.2 tile size).mp hsize
  have horiginMem : origin ∈ before := Table.mem_iff_exists.mpr ⟨size, horigin⟩
  unfold TileKey.moved at htileSet
  split at htileSet
  · rename_i hlayer
    obtain rfl : key.layer = target := (congrArg TileSet.layer htileSet).symm
    have hlayerPlain := (h.plain horiginMem).layer
    rw [hlayer] at hlayerPlain
    have htwin : ({ key with layer := layer } : TileKey).Plain := ⟨hlayerPlain, hkey.gridset, hkey.format⟩
    have hlayers : table.SameCoverage ({ key with layer := layer } : TileKey).layer key.layer := hcoverage
    have htwinLevel := hlayers.levelOf?_renamed.symm.trans hlevel
    have hcovers := covers_renamed_target h htells ht hcoverage hne htwin rfl htwinLevel hpos
    exact hcovers
  · rename_i hlayer
    have hkeyLayer : key.layer ≠ layer := fun heq => hlayer ((congrArg TileSet.layer htileSet).trans heq)
    have hkeyTarget : key.layer ≠ target := fun heq =>
      htells.1 origin horiginMem ((congrArg TileSet.layer htileSet).trans heq)
    exact covers_renamed_other h htells ht hne hkey hkeyLayer hkeyTarget hlevel hpos

end Rename

/-- A layer without tiles renamed to itself. -/
theorem heard_rename_self (h : Filled table before ledger) {layer : String}
    (htells : (Event.layerRenamed layer layer).Tells before after) (now : Int) :
    Filled table after (ledger.heard table rounded (.layerRenamed layer layer) now) := by
  change Filled table after (ledger.renameLayer layer layer)
  rw [htells.eq_of_self, Ledger.renameLayer_self h.sound]
  exact h

/-- Filled pages outlive every event. -/
theorem heard (h : Filled table before ledger) (htells : event.Tells before after) (hadmissible : event.Admissible table)
    (now : Int) : Filled table after (ledger.heard table rounded event now) := by
  rcases event.kinds with ⟨tile, htile⟩ | ⟨layer, target, rfl⟩ | ⟨htile, hrename⟩
  · exact h.heard_tile htells hadmissible htile now
  · by_cases hsame : layer = target
    · subst hsame
      exact h.heard_rename_self htells now
    · exact heard_rename h htells hadmissible.1 hadmissible.2 hsame now
  · exact h.heard_bulk htells hadmissible htile hrename now

/-- Hits put fill on a page, and take none away. -/
theorem hits (h : Filled table sizes ledger) {key : TileKey} {level : Level} (hkey : key.Plain) (hits : Nat) (now : Int) :
    Filled table sizes (ledger.addHits key.tileSet (key.pageAt level now) hits now).2 := by
  refine ⟨⟨h.plain, h.sound.addHits hkey.tileSet rfl hits now⟩, fun {pageKey entry} hentry => ?_,
    fun {key' level'} hkey' hlevel' hpos => ?_⟩
  · rw [Ledger.addHits, Ledger.pages_changeStats] at hentry
    split at hentry
    · rw [← Option.some.inj hentry]
      exact (h.inRange_entry _ _).addHits _ _ _
    · exact h.inRange hentry
  · rw [Ledger.addHits, Ledger.pages_changeStats]
    split
    · rename_i hpage
      refine ⟨_, rfl, ?_⟩
      exact (h.covers_entry hkey' hlevel' _ hpage now).mono (PageStats.fill_le_addHits _ _ _ _)
    · exact h.covers hkey' hlevel' hpos

/-- A page without tiles may be recorded as empty. -/
theorem truncated (h : Filled table sizes ledger) {set : TileSet} {page : Page} (hset : set.Plain)
    (hpage : page.tileSet = set.id) (hcount : table.countOn page.key sizes = 0) (now : Int) :
    Filled table sizes (ledger.setTruncated set page now) := by
  refine ⟨⟨h.plain, h.sound.setTruncated hset hpage now⟩, fun {pageKey entry} hentry => ?_,
    fun {key level} hkey hlevel hpos => ?_⟩
  · rw [Ledger.setTruncated, Ledger.pages_changeStats] at hentry
    split at hentry
    · rw [← Option.some.inj hentry]
      exact PageStats.InRange.truncated
    · exact h.inRange hentry
  · rw [Ledger.setTruncated, Ledger.pages_changeStats]
    split
    · rename_i hsame
      rw [← hsame, hcount] at hpos
      exact absurd hpos (by simp)
    · exact h.covers hkey hlevel hpos

/-- Filled pages are upheld, where words have room for the pages. -/
theorem upheld (hfits : table.Fits) (rounded : Nat → Nat) : Upheld table rounded (Filled table) where
  kept h := h.toKept
  heard h htells hadmissible now := h.heard htells hadmissible now
  hits h hkey _ hits now := h.hits hkey hits now
  truncated h hset hpage hcount now := h.truncated hset hpage (hcount hfits) now

end Filled

end TileDepot
