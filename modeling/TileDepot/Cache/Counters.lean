/-!
# Cache statistics

A cache counts what happens to it. A report joins the counts with how full the cache is.
-/

namespace TileDepot

/-- What has happened to a cache. -/
structure CacheCounters where
  hits : Nat := 0
  misses : Nat := 0
  /-- Tiles dropped to make room. -/
  evictions : Nat := 0
  insertions : Nat := 0
  /-- Tiles dropped because they were no longer valid. -/
  invalidations : Nat := 0
deriving Repr, DecidableEq, Inhabited

namespace CacheCounters

/-- One look-up more that found its tile. -/
def hit (c : CacheCounters) : CacheCounters := { c with hits := c.hits + 1 }

/-- One look-up more that did not. -/
def miss (c : CacheCounters) : CacheCounters := { c with misses := c.misses + 1 }

/-- `n` tiles more dropped to make room. -/
def evict (c : CacheCounters) (n : Nat) : CacheCounters := { c with evictions := c.evictions + n }

/-- One tile more put in. -/
def insert (c : CacheCounters) : CacheCounters := { c with insertions := c.insertions + 1 }

/-- `n` tiles more dropped as no longer valid. -/
def invalidate (c : CacheCounters) (n : Nat) : CacheCounters := { c with invalidations := c.invalidations + n }

/-- The part of the look-ups that found their tile; none of no look-ups. -/
def hitRatio (c : CacheCounters) : Float :=
  let hits := Float.ofNat c.hits
  let total := hits + Float.ofNat c.misses
  if total == 0.0 then 0.0 else hits / total

end CacheCounters

/-- The counts of a cache and how full it is. -/
structure CacheReport where
  counters : CacheCounters
  entries : Nat
  /-- Bytes of payload held. -/
  size : Nat
  /-- Bytes of payload the cache may hold. -/
  capacity : Nat
deriving Repr, DecidableEq, Inhabited

/-- How much of the capacity is in use, in percent; none of no capacity. -/
def CacheReport.occupancy (report : CacheReport) : Float :=
  if report.capacity = 0 then 0.0 else Float.ofNat report.size * 100.0 / Float.ofNat report.capacity

end TileDepot
