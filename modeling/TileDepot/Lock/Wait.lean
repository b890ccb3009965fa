import TileDepot.Error
import TileDepot.Number.Binary64

/-!
# Waiting for a lock

A lock that somebody else holds is asked for again and again with a pause in between, until it is obtained, the clock has
advanced by a timeout since the waiting began, or a cancellation ends a pause. Clocks are read afresh at each turn and may
stand still, jump or run backwards.
-/

namespace TileDepot

/-- How a wait ends within the time it is watched. -/
inductive WaitOutcome (α : Type) where
  | obtained (value : α)
  | failed (error : Error)
  /-- The wait is not over. -/
  | waiting
deriving DecidableEq, Inhabited

/-- A time in milliseconds as a signed word of 64 bits. -/
def signedMillis (millis : Nat) : Int := (millis : Int).bmod (Nat.pow 2 64)

/-- The time between two readings of a clock, cut down to a word. -/
def elapsedMillis (started now : Int) : Int := Binary64.clamp Binary64.minInt64 Binary64.maxInt64 (now - started)

/-- What a wait does at each turn. -/
structure Waiter (σ α : Type) where
  /-- Asks for the lock: the lock, or none when somebody else holds it. -/
  attempt : σ → Except Error (Option α) × σ
  /-- Reads the clock. -/
  readClock : σ → Int × σ
  /-- Pauses, and says whether the pause was cancelled. -/
  pause : σ → Bool × σ

namespace Waiter

/-- A wait that began at `started`, watched for a number of turns. -/
def run {σ α : Type} (waiter : Waiter σ α) (key : String) (timeout : Nat) (started : Int) (turns : Nat) (state : σ) :
    WaitOutcome α × σ :=
  match turns with
  | 0 => (.waiting, state)
  | turns + 1 =>
    match waiter.attempt state with
    | (.error e, state) => (.failed e, state)
    | (.ok (some value), state) => (.obtained value, state)
    | (.ok none, state) =>
      let (now, state) := waiter.readClock state
      let waited := elapsedMillis started now
      if waited ≥ signedMillis timeout then (.failed (.lockTimeout key waited.toNat), state)
      else
        let (cancelled, state) := waiter.pause state
        if cancelled then (.failed (.lockInterrupted key), state)
        else waiter.run key timeout started turns state

end Waiter

end TileDepot
