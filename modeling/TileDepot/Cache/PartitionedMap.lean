import Std.Data.ExtTreeMap

/-!
# Partitioned maps

A map cut into a number of parts that is a power of two: the hash of a key says which part holds it. Every part counts its
entries and adds up their weights as they come and go, so that the totals of the map are known without a walk through it. The
totals are words that wrap around.
-/

namespace TileDepot

variable {κ α : Type} [Ord κ] [Std.TransOrd κ]

/-- The sum of some totals. -/
def addUp (totals : List UInt64) : UInt64 := totals.foldl (fun sum total => sum + total) 0

/-- One part of a map, with its totals. -/
structure MapPart (κ α : Type) [Ord κ] where
  entries : Std.ExtTreeMap κ α
  /-- How many entries there are. -/
  count : UInt64
  /-- What the entries weigh together. -/
  weight : UInt64

namespace MapPart

/-- A part without entries. -/
def empty : MapPart κ α := ⟨∅, 0, 0⟩

/-- The part with a value under a key, and the value that was there before. -/
def insert (weigh : α → UInt64) (part : MapPart κ α) (key : κ) (value : α) : MapPart κ α × Option α :=
  match part.entries[key]? with
  | some old =>
    (⟨part.entries.insert key value, part.count, part.weight - weigh old + weigh value⟩, some old)
  | none => (⟨part.entries.insert key value, part.count + 1, part.weight + weigh value⟩, none)

/-- The part without a key, and the value that was there. -/
def remove (weigh : α → UInt64) (part : MapPart κ α) (key : κ) : MapPart κ α × Option α :=
  match part.entries[key]? with
  | some old => (⟨part.entries.erase key, part.count - 1, part.weight - weigh old⟩, some old)
  | none => (part, none)

/-- The part with the value of a key changed, and whether there was one. -/
def update (weigh : α → UInt64) (part : MapPart κ α) (key : κ) (change : α → α) : MapPart κ α × Bool :=
  match part.entries[key]? with
  | some old =>
    (⟨part.entries.insert key (change old), part.count, part.weight + weigh (change old) - weigh old⟩, true)
  | none => (part, false)

/-- The part with only the entries to be kept, and how many were dropped. -/
def retain (weigh : α → UInt64) (part : MapPart κ α) (keep : κ → α → Bool) : MapPart κ α × Nat :=
  let dropped := part.entries.toList.filter fun (key, value) => !keep key value
  let freed := addUp (dropped.map fun (_, value) => weigh value)
  (⟨part.entries.filter keep, part.count - UInt64.ofNat dropped.length, part.weight - freed⟩, dropped.length)

end MapPart

/-- A map cut into parts. -/
structure PartitionedMap (κ α : Type) [Ord κ] where
  parts : Array (MapPart κ α)
  parts_pos : 0 < parts.size

namespace PartitionedMap

/-- Why a map cannot be cut into some number of parts. -/
def countFault : String := "shard count must be a power of two"

/-- An empty map of `count` parts, a power of two. -/
def ofCount (count : Nat) : Except String (PartitionedMap κ α) :=
  if h : Nat.pow 2 count.log2 = count then
    .ok ⟨Array.replicate count .empty, by rw [Array.size_replicate, ← h]; exact Nat.two_pow_pos _⟩
  else .error countFault

/-- Where the part of a key stands. -/
def position (hash : κ → Nat) (map : PartitionedMap κ α) (key : κ) : Fin map.parts.size :=
  ⟨hash key % map.parts.size, Nat.mod_lt _ map.parts_pos⟩

/-- The part of a key. -/
def part (hash : κ → Nat) (map : PartitionedMap κ α) (key : κ) : MapPart κ α := map.parts[map.position hash key]

/-- The map with the part of a key replaced. -/
def setPart (hash : κ → Nat) (map : PartitionedMap κ α) (key : κ) (part : MapPart κ α) : PartitionedMap κ α :=
  ⟨map.parts.set (map.position hash key) part, by rw [Array.size_set]; exact map.parts_pos⟩

/-- How many entries there are. -/
def size (map : PartitionedMap κ α) : UInt64 := addUp (map.parts.toList.map (·.count))

/-- Whether there are no entries. -/
def isEmpty (map : PartitionedMap κ α) : Bool := map.parts.all (·.count == 0)

/-- What the entries weigh together. -/
def weight (map : PartitionedMap κ α) : UInt64 := addUp (map.parts.toList.map (·.weight))

/-- The value under a key. -/
def get? (hash : κ → Nat) (map : PartitionedMap κ α) (key : κ) : Option α := (map.part hash key).entries[key]?

/-- The map with a value under a key, and the value that was there before. -/
def insert (hash : κ → Nat) (weigh : α → UInt64) (map : PartitionedMap κ α) (key : κ) (value : α) :
    PartitionedMap κ α × Option α :=
  let (part, old) := (map.part hash key).insert weigh key value
  (map.setPart hash key part, old)

/-- The map without a key, and the value that was there. -/
def remove (hash : κ → Nat) (weigh : α → UInt64) (map : PartitionedMap κ α) (key : κ) : PartitionedMap κ α × Option α :=
  let (part, old) := (map.part hash key).remove weigh key
  (map.setPart hash key part, old)

/-- The map with the value of a key changed, and whether there was one. -/
def update (hash : κ → Nat) (weigh : α → UInt64) (map : PartitionedMap κ α) (key : κ) (change : α → α) :
    PartitionedMap κ α × Bool :=
  let (part, found) := (map.part hash key).update weigh key change
  (map.setPart hash key part, found)

/-- The map with only the entries to be kept, and how many were dropped. -/
def retain (weigh : α → UInt64) (map : PartitionedMap κ α) (keep : κ → α → Bool) : PartitionedMap κ α × Nat :=
  (⟨map.parts.map fun part => (part.retain weigh keep).1, by rw [Array.size_map]; exact map.parts_pos⟩,
    map.parts.toList.foldl (fun sum part => sum + (part.retain weigh keep).2) 0)

/-- The map without entries. -/
def clear (map : PartitionedMap κ α) : PartitionedMap κ α :=
  ⟨map.parts.map fun _ => .empty, by rw [Array.size_map]; exact map.parts_pos⟩

/-- All entries, part by part. -/
def toList (map : PartitionedMap κ α) : List (κ × α) := map.parts.toList.flatMap fun part => part.entries.toList

end PartitionedMap

end TileDepot
