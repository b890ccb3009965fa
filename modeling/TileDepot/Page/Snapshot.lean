import TileDepot.Page.Ledger

/-!
# Snapshots

A snapshot is a ledger as text: the tile sets, the pages with their statistics, and the usage of each tile set.
-/

namespace TileDepot

namespace PageEntry

/-- The entry as it is stored. -/
def doc (entry : PageEntry) : Json.Doc := .object [("page", entry.page.doc), ("stats", entry.stats.doc)]

/-- The entry that was stored. -/
def ofJson? (value : Json) : Option PageEntry := do
  match ← value.record? [("page", .required), ("stats", .required)] with
  | [some page, some stats] => return ⟨← Page.ofJson? page, ← PageStats.ofJson? stats⟩
  | _ => none

end PageEntry

namespace Usage

/-- The usage as it is stored. -/
def doc (usage : Usage) : Json.Doc := .object [("used", usage.used.doc), ("tiles", .int usage.tiles)]

/-- The usage that was stored. -/
def ofJson? (value : Json) : Option Usage := do
  match ← value.record? [("used", .required), ("tiles", .required)] with
  | [some used, some tiles] => return ⟨← ByteSize.ofJson? used, ← tiles.int? Binary64.minInt64 Binary64.maxInt64⟩
  | _ => Option.none

end Usage

namespace Ledger

/-- The ledger as it is stored. -/
def doc (ledger : Ledger) : Json.Doc :=
  .object [("tileSets", .array (ledger.allTileSets.map TileSet.doc)),
    ("pages", .array (ledger.pages.values.map PageEntry.doc)),
    ("usage", .object (ledger.usage.toList.map fun (id, usage) => (id, usage.doc)))]

/-- The ledger as text. -/
def snapshot (ledger : Ledger) : String := ledger.doc.pretty 0

/-- The ledger of some tile sets, pages and usage. -/
def ofEntries (sets : List TileSet) (pages : List PageEntry) (usage : List (String × Usage)) : Ledger :=
  ⟨.ofList (sets.map fun set => (set.id, set)), .ofList (pages.map fun entry => (entry.page.key, entry)), .ofList usage⟩

/-- The ledger that was stored. -/
def ofJson? (value : Json) : Option Ledger := do
  match ← value.record? [("tileSets", .required), ("pages", .required), ("usage", .required)] with
  | [some sets, some pages, some usage] =>
    return ofEntries (← sets.list? TileSet.ofJson?) (← pages.list? PageEntry.ofJson?)
      (← (← usage.fields?).mapM fun (id, usage) => (Usage.ofJson? usage).map (id, ·))
  | _ => none

/-- The ledger a snapshot holds. -/
def ofSnapshot (text : String) : Except Error Ledger := Json.decode ofJson? text

end Ledger

end TileDepot
