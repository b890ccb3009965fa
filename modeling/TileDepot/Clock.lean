/-!
# Time

The depot reads time in whole milliseconds since an epoch and keeps its statistics in whole minutes.
-/

namespace TileDepot

/-- Milliseconds in a minute. -/
def millisPerMinute : Int := 60000

/-- A time in milliseconds. -/
structure Clock where
  millis : Int
deriving Repr, DecidableEq, Inhabited

namespace Clock

/-- The clock at the start of a minute. -/
def atMinutes (minutes : Int) : Clock := ⟨minutes * millisPerMinute⟩

/-- The minutes of a time; the part of a minute is dropped, before the epoch too. -/
def minutes (clock : Clock) : Int := clock.millis.tdiv millisPerMinute

/-- The clock `minutes` later. -/
def advanceMinutes (clock : Clock) (minutes : Int) : Clock := ⟨clock.millis + minutes * millisPerMinute⟩

/-- A clock set to a minute shows it. -/
@[simp] theorem minutes_atMinutes (minutes : Int) : (atMinutes minutes).minutes = minutes := by
  simp [atMinutes, Clock.minutes, millisPerMinute]

end Clock

end TileDepot
