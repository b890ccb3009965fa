import Std.Data.ExtTreeMap
import TileDepot.ByteSize.Basic
import TileDepot.Number.Word
import TileDepot.Page.Page
import TileDepot.Page.Stats

/-!
# Ledgers

A ledger keeps the books of a depot: its tile sets, the statistics of their pages, and how much each tile set uses. What is
recorded for a tile set registers it. A tile set goes with its pages and its usage, and moves with them when its layer is
renamed. Usage is added up in words, so that a sum that is too large for its word wraps around.
-/

namespace TileDepot

/-- A page with its statistics. -/
structure PageEntry where
  page : Page
  stats : PageStats
deriving Repr, Inhabited

/-- What a tile set uses: bytes and tiles. -/
structure Usage where
  used : ByteSize
  tiles : Int
deriving Repr, DecidableEq, Inhabited

namespace Usage

/-- Nothing is used. -/
def none : Usage := ⟨.zero, 0⟩

/-- The usage of some bytes and tiles, neither of them below zero. -/
def ofTotals (bytes tiles : Int) : Usage := ⟨if bytes < 0 then .zero else .ofBytes bytes, max tiles 0⟩

/-- A usage with tiles and bytes added, or taken away when negative, as words hold the sums. -/
def recordInWords (usage : Usage) (tiles bytes : Int) : Usage :=
  ofTotals (Word.wrap 128 (usage.used.bytes + bytes)) (Word.wrap 64 (usage.tiles + tiles))

/-- A usage with tiles and bytes added, or taken away when negative. This is what words hold as long as the sums fit in them, as
the number of tiles that are stored at one time and their sizes do. -/
def record (usage : Usage) (tiles bytes : Int) : Usage := ofTotals (usage.used.bytes + bytes) (usage.tiles + tiles)

/-- The average size of a tile. -/
def averageSize (usage : Usage) : Float :=
  if usage.tiles ≤ 0 then 0 else Float.ofInt usage.used.bytes / Float.ofInt usage.tiles

end Usage

/-- The tile sets of a depot with their pages and their usage. -/
structure Ledger where
  tileSets : Std.ExtTreeMap String TileSet
  pages : Std.ExtTreeMap PageKey PageEntry
  usage : Std.ExtTreeMap String Usage

namespace Ledger

/-- A ledger without entries. -/
def empty : Ledger := ⟨∅, ∅, ∅⟩

instance : Inhabited Ledger := ⟨empty⟩

/-! ## Tile sets -/

/-- A tile set registered, unless there is one of its identifier already. -/
def register (ledger : Ledger) (set : TileSet) : Ledger :=
  { ledger with tileSets := ledger.tileSets.insertIfNew set.id set }

/-- The registered tile sets in the order of their identifiers. -/
def allTileSets (ledger : Ledger) : List TileSet := ledger.tileSets.values

/-- The registered tile sets of a layer. -/
def tileSetsOf (ledger : Ledger) (layer : String) : List TileSet := ledger.allTileSets.filter (·.layer == layer)

/-- The layers with a registered tile set, in order. -/
def layerNames (ledger : Ledger) : List String :=
  (Std.ExtTreeMap.ofList (ledger.allTileSets.map fun set => (set.layer, ()))).keys

/-! ## Pages -/

/-- The entry of a page; one that is missing starts with the page as it is given and with fresh statistics. -/
def entry (ledger : Ledger) (page : Page) (now : Int) : PageEntry :=
  ledger.pages.getD page.key ⟨page, .fresh now⟩

/-- The statistics of a page changed, and what they are then. -/
def changeStats (ledger : Ledger) (set : TileSet) (page : Page) (now : Int) (change : PageEntry → PageStats) :
    PageStats × Ledger :=
  let entry := ledger.entry page now
  let stats := change entry
  let ledger := ledger.register set
  (stats, { ledger with pages := ledger.pages.insert page.key { entry with stats } })

/-- Hits recorded on a page. -/
def addHits (ledger : Ledger) (set : TileSet) (page : Page) (hits : Nat) (now : Int) : PageStats × Ledger :=
  ledger.changeStats set page now fun entry => entry.stats.addHits hits now entry.page.created

/-- The usage of a tile set. -/
def usageOf (ledger : Ledger) (id : String) : Usage := ledger.usage.getD id .none

/-- Tiles and bytes recorded on a page, or taken away when negative, where a full page has `slots` tiles; the usage is recorded in
a given way. -/
def addTilesBy (record : Usage → Int → Int → Usage) (ledger : Ledger) (set : TileSet) (page : Page) (tiles : Int) (slots : Nat)
    (bytes now : Int) : PageStats × Ledger :=
  let ledger := { ledger with usage := ledger.usage.insert set.id (record (ledger.usageOf set.id) tiles bytes) }
  ledger.changeStats set page now fun entry => entry.stats.addTiles tiles slots

/-- Any number of tiles and bytes recorded on a page. -/
def addTiles : Ledger → TileSet → Page → (tiles : Int) → (slots : Nat) → (bytes now : Int) → PageStats × Ledger :=
  addTilesBy Usage.recordInWords

/-- A page recorded as empty. -/
def setTruncated (ledger : Ledger) (set : TileSet) (page : Page) (now : Int) : Ledger :=
  (ledger.changeStats set page now fun entry => entry.stats.truncated).2

/-- The statistics of a page, if there are any. -/
def statsOf (ledger : Ledger) (key : PageKey) : Option PageStats := ledger.pages[key]?.map (·.stats)

/-- The number of pages with statistics. -/
def pageCount (ledger : Ledger) : Nat := ledger.pages.size

/-- The pages of a tile set in the order of their keys: the run of keys of the tile set, from the least such key on. -/
def pagesOf (ledger : Ledger) (id : String) : List PageEntry :=
  let fromStart := ledger.pages.toList.dropWhile fun (key, _) => (compare key ⟨id, 0, 0, 0⟩).isLT
  (fromStart.takeWhile fun (key, _) => key.tileSet == id).map (·.2)

/-- The pages of all tile sets of a layer. -/
def pagesOfLayer (ledger : Ledger) (layer : String) : List PageEntry :=
  (ledger.tileSetsOf layer).flatMap fun set => ledger.pagesOf set.id

/-! ## Usage -/

/-- The sum of some sizes. -/
def total (sizes : List ByteSize) : ByteSize := sizes.foldl .add .zero

/-- What the tile sets of a layer use. -/
def usedByLayer (ledger : Ledger) (layer : String) : ByteSize :=
  total ((ledger.tileSetsOf layer).filterMap fun set => ledger.usage[set.id]?.map (·.used))

/-- What all tile sets use. -/
def usedInAll (ledger : Ledger) : ByteSize := total (ledger.usage.values.map (·.used))

/-! ## Deletion and renaming -/

/-- The ledger without the tile sets that are doomed, and how many pages went with them. -/
def drop (ledger : Ledger) (doomed : TileSet → Bool) : Nat × Ledger :=
  let gone := ledger.tileSets.filter fun _ set => doomed set
  let ids : Std.ExtTreeMap String Unit := .ofList (gone.values.map fun set => (set.id, ()))
  let kept := ledger.pages.filter fun key _ => !ids.contains key.tileSet
  (ledger.pages.size - kept.size,
    ⟨ledger.tileSets.filter fun id _ => !ids.contains id, kept, ledger.usage.filter fun id _ => !ids.contains id⟩)

/-- The ledger without a layer, and how many pages went with it. -/
def deleteLayer (ledger : Ledger) (layer : String) : Nat × Ledger := ledger.drop (·.layer == layer)

/-- The ledger without a layer in a gridset, and how many pages went with it. -/
def deleteGridset (ledger : Ledger) (layer gridset : String) : Nat × Ledger :=
  ledger.drop fun set => set.layer == layer && set.gridset == gridset

/-- The ledger without a layer with a set of parameters, and how many pages went with it. -/
def deleteParameters (ledger : Ledger) (layer parameters : String) : Nat × Ledger :=
  ledger.drop fun set => set.layer == layer && set.parameters == some parameters

/-- The same page in another tile set. -/
def reassign (entry : PageEntry) (id : String) : PageEntry := { entry with page := { entry.page with tileSet := id } }

/-- Pages with those of a tile set moved to another. -/
def movePages (pages : Std.ExtTreeMap PageKey PageEntry) (id target : String) : Std.ExtTreeMap PageKey PageEntry :=
  (pages.filter fun key _ => key.tileSet == id).foldl
    (fun pages key entry =>
      let moved := reassign entry target
      (pages.erase key).insert moved.page.key moved)
    pages

/-- Usage with that of a tile set moved to another. -/
def moveUsage (usage : Std.ExtTreeMap String Usage) (id target : String) : Std.ExtTreeMap String Usage :=
  match usage[id]? with
  | none => usage
  | some moved => (usage.erase id).insert target moved

/-- A tile set moved to another layer with its pages and its usage, which replace those in their place. -/
def moveTileSet (ledger : Ledger) (set : TileSet) (layer : String) : Ledger :=
  let renamed := set.renamed layer
  ⟨(ledger.tileSets.erase set.id).insert renamed.id renamed, movePages ledger.pages set.id renamed.id,
    moveUsage ledger.usage set.id renamed.id⟩

/-- All tile sets of a layer moved to another layer. -/
def renameLayer (ledger : Ledger) (layer target : String) : Ledger :=
  (ledger.tileSetsOf layer).foldl (fun ledger set => ledger.moveTileSet set target) ledger

end Ledger

end TileDepot
