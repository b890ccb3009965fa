import TileDepot.Grid.Pyramid
import TileDepot.Page.TileSet

/-!
# Pages

A page is a block of tiles of a tile set at one zoom. Its key orders pages by tile set, then by zoom, row and column, so
that the pages of a tile set lie together in a sorted map.
-/

namespace TileDepot

/-- What identifies a page. -/
structure PageKey where
  tileSet : String
  zoom : Nat
  row : Nat
  column : Nat
deriving Repr, DecidableEq, Inhabited

namespace PageKey

/-- The order of page keys: by tile set, then by zoom, row and column. -/
def order : PageKey → PageKey → Ordering :=
  compareLex (compareOn tileSet) (compareLex (compareOn zoom) (compareLex (compareOn row) (compareOn column)))

instance : Ord PageKey := ⟨order⟩

instance : Std.TransOrd PageKey := inferInstanceAs (Std.TransCmp (compareLex _ (compareLex _ (compareLex _ _))))

instance : Std.LawfulEqOrd PageKey where
  eq_of_compare {a b} h := by
    change order a b = .eq at h
    simp only [order, compareLex, compareOn, Ordering.then_eq_eq] at h
    obtain ⟨ht, hz, hr, hc⟩ := h
    have ht := Std.LawfulEqOrd.eq_of_compare (α := String) ht
    have hz := Std.LawfulEqOrd.eq_of_compare (α := Nat) hz
    have hr := Std.LawfulEqOrd.eq_of_compare (α := Nat) hr
    have hc := Std.LawfulEqOrd.eq_of_compare (α := Nat) hc
    cases a
    cases b
    simp_all

/-- The key in words. -/
def text (key : PageKey) : String := s!"{key.tileSet}@{key.column},{key.row},{key.zoom}"

/-- The key as it is stored. -/
def doc (key : PageKey) : Json.Doc :=
  .object [("tileSetId", .text key.tileSet), ("z", .nat key.zoom), ("y", .nat key.row), ("x", .nat key.column)]

end PageKey

/-- A page and the minute it was created in. -/
structure Page where
  tileSet : String
  column : Nat
  row : Nat
  zoom : Nat
  created : Int
deriving Repr, DecidableEq, Inhabited

namespace Page

/-- The page at an index of a pyramid. -/
def ofIndex (tileSet : String) (index : PageIndex) (created : Int) : Page :=
  ⟨tileSet, index.column, index.row, index.zoom, created⟩

/-- Where the page lies in a pyramid. -/
def index (page : Page) : PageIndex := ⟨page.column, page.row, page.zoom⟩

/-- What identifies the page. -/
def key (page : Page) : PageKey := ⟨page.tileSet, page.zoom, page.row, page.column⟩

/-- The page in words. -/
def text (page : Page) : String := s!"TilePage[{page.tileSet}@{page.column},{page.row},{page.zoom}]"

/-- The page as it is stored. -/
def doc (page : Page) : Json.Doc :=
  .object [("tileSetId", .text page.tileSet), ("pageX", .nat page.column), ("pageY", .nat page.row),
    ("zoomLevel", .nat page.zoom), ("creationTimeMinutes", .int page.created)]

/-- The fields of a stored page. -/
def storedFields : List (String × Json.Presence) :=
  [("tileSetId", .required), ("pageX", .required), ("pageY", .required), ("zoomLevel", .required),
    ("creationTimeMinutes", .required)]

/-- A stored natural number of 32 bits. -/
def word? (value : Json) : Option Nat := (value.int? 0 Binary64.maxUInt32).map Int.toNat

/-- The page that was stored. -/
def ofJson? (value : Json) : Option Page := do
  match ← value.record? storedFields with
  | [some tileSet, some column, some row, some zoom, some created] =>
    return ⟨← tileSet.text?, ← word? column, ← word? row, ← word? zoom,
      ← created.int? Binary64.minInt64 Binary64.maxInt64⟩
  | _ => none

end Page

end TileDepot
