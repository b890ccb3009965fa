import TileDepot.Json.Reader
import TileDepot.Json.Writer
import TileDepot.Number.Decimal

/-!
# Page statistics

How full a page is, how often its tiles are asked for, and when they last were. The fill is counted in fixed-point units,
ten million of which make a full page; a change is rounded so that a page never looks emptier than it is.
-/

namespace TileDepot

/-- The units of fill in a full page. -/
def fillScale : Int := 10000000

/-- What is known of the use of a page. -/
structure PageStats where
  /-- How full the page is, in units of `1 / fillScale`. -/
  fill : Int
  /-- Hits in a minute, smoothed. -/
  frequency : Float
  /-- The minute of the last access. -/
  lastAccess : Int
  hits : Nat
deriving Repr, Inhabited

namespace PageStats

/-- The statistics of an empty page that nobody has asked for since `now`. -/
def fresh (now : Int) : PageStats := ⟨0, 0.0, now, 0⟩

/-- How full the page is, from none to one. -/
def fillFactor (stats : PageStats) : Float := Float.ofInt stats.fill / Float.ofInt fillScale

/-- Whether the page holds nothing. -/
def isEmpty (stats : PageStats) : Bool := stats.fill == 0

/-- The minutes between two times, none when they run backwards, cut down to a word. -/
def elapsed (last now : Int) : Int := Binary64.clamp 0 Binary64.maxInt64 (now - last)

/-- `hits` recorded at `now`, or at the creation of the page if that is later. The hits of a page that is filled in part
count for more; a page without fill is given the least fill first. -/
def addHits (stats : PageStats) (hits : Nat) (now created : Int) : PageStats :=
  let now := max now created
  let stats := if stats.fill ≤ 0 then { stats with fill := 1 } else stats
  let weight := Float.ofNat hits / stats.fillFactor
  let minutes := elapsed stats.lastAccess now
  { stats with
    frequency :=
      if minutes = 0 then stats.frequency + weight else (stats.frequency + weight / Float.ofInt minutes) / 2.0
    hits := min (stats.hits + hits) Binary64.maxUInt64
    lastAccess := now }

/-- The change of fill when `tiles` tiles of `slots` come, or go when negative: rounded up. -/
def fillDelta (tiles : Int) (slots : Nat) : Int :=
  let units := tiles * fillScale
  if units > 0 ∧ units % slots ≠ 0 then units / slots + 1 else units.tdiv slots

/-- `tiles` tiles of `slots` added, or removed when negative; the fill stays between none and full. -/
def addTiles (stats : PageStats) (tiles : Int) (slots : Nat) : PageStats :=
  if slots = 0 ∨ (fillScale ≤ stats.fill ∧ 0 ≤ tiles) ∨ (stats.fill ≤ 0 ∧ tiles ≤ 0) then stats
  else { stats with fill := Binary64.clamp 0 fillScale (stats.fill + fillDelta tiles slots) }

/-- The statistics once every tile of the page is gone. -/
def truncated (stats : PageStats) : PageStats := { stats with fill := 0 }

/-- The fill set to a fraction, cut down to the range from none to full. -/
def withFillFactor (stats : PageStats) (factor : Float) : PageStats :=
  { stats with
    fill := Binary64.clamp 0 fillScale
      ((Binary64.ofFloat (factor * Float.ofInt fillScale)).toInt .halfAway Binary64.minInt64 Binary64.maxInt64) }

/-- The statistics in words. -/
def text (stats : PageStats) : String :=
  let fill := Binary64.toFixed 7 stats.fillFactor
  let frequency := Binary64.toFixed 4 stats.frequency
  s!"PageStats[fillFactor: {fill}, frequencyOfUse: {frequency}, lastAccess: {stats.lastAccess}m]"

/-- The statistics as they are stored. -/
def doc (stats : PageStats) : Json.Doc :=
  .object [("fillUnits", .int stats.fill), ("frequencyOfUse", .float stats.frequency),
    ("lastAccessMinutes", .int stats.lastAccess), ("numHits", .nat stats.hits)]

/-- The fields of stored statistics. -/
def storedFields : List (String × Json.Presence) :=
  [("fillUnits", .required), ("frequencyOfUse", .required), ("lastAccessMinutes", .required), ("numHits", .required)]

/-- A stored whole number of 64 bits. -/
def word? (value : Json) : Option Int := value.int? Binary64.minInt64 Binary64.maxInt64

/-- The statistics that were stored. -/
def ofJson? (value : Json) : Option PageStats := do
  match ← value.record? storedFields with
  | [some fill, some frequency, some lastAccess, some hits] =>
    return ⟨← word? fill, ← frequency.float?, ← word? lastAccess, (← hits.int? 0 Binary64.maxUInt64).toNat⟩
  | _ => none

/-- The statistics a JSON text stores. -/
def ofJsonText (text : String) : Except Error PageStats := Json.decode ofJson? text

end PageStats

end TileDepot
