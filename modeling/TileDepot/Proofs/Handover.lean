import Mathlib.Data.List.Induction
import Mathlib.Data.List.Infix
import TileDepot.Proofs.Table
import TileDepot.Store.Handover

/-!
# Tiles in line

The tiles that wait to be handed over are kept in a table and in an order, which are changed one after the other. Together they
are one line, whatever the calls and the clock: a tile that comes gives up the place that it had and takes the last one, the first
ones go while there are more than a hundred, and a tile that is asked for leaves the line. So a tile is handed over once at
most for each time that it came, and only as long as it has stood in line since then.
-/

namespace TileDepot

/-- A call of a handover, with the time of it. -/
inductive HandoverCall where
  | offer (tile : Tile) (now : Int)
  | collect (tile : Tile) (now : Int)

namespace HandoverCall

/-- Whether a call brings a tile of a key, or asks for it. -/
def touches (key : TileKey) : HandoverCall → Bool
  | offer tile _ => tile.key == key && tile.blob.isSome
  | collect tile _ => tile.key == key

/-- A call puts a tile in line. -/
def Puts (item : TileKey × Waiting) (call : HandoverCall) : Prop :=
  ∃ tile : Tile, call = .offer tile item.2.since ∧ tile.key = item.1 ∧ tile.blob = some item.2.blob

/-- A call that puts a tile in line touches its key. -/
theorem Puts.touches {item : TileKey × Waiting} {call : HandoverCall} (h : call.Puts item) : call.touches item.1 = true := by
  obtain ⟨tile, rfl, hkey, hblob⟩ := h
  simp [HandoverCall.touches, hkey, hblob]

end HandoverCall

namespace Handover

/-- A handover after a call. -/
def perform (handover : Handover) : HandoverCall → Handover
  | .offer tile now => handover.offer tile now
  | .collect tile now => (handover.collect tile now).2

/-- A handover after some calls. -/
def performAll (handover : Handover) (calls : List HandoverCall) : Handover := calls.foldl perform handover

/-- What is answered to those of some calls that ask for a tile. -/
def answers (handover : Handover) : List HandoverCall → List (Bool × Tile)
  | [] => []
  | .offer tile now :: calls => (handover.perform (.offer tile now)).answers calls
  | .collect tile now :: calls => (handover.collect tile now).1 :: (handover.perform (.collect tile now)).answers calls

/-- Tiles that stand in line, the one that came first in front. -/
abbrev Line := List (TileKey × Waiting)

namespace Line

/-- A line that the tile of a key has left. -/
def without (line : Line) (key : TileKey) : Line := line.filter (·.1 != key)

/-- A line of which the first have gone that are more than a hundred. -/
def shortened (line : Line) : Line := line.drop (line.length - 100)

/-- A line that a tile has joined at the end. -/
def put (line : Line) (key : TileKey) (blob : ByteArray) (now : Int) : Line :=
  shortened (line.without key ++ [(key, ⟨blob, now⟩)])

/-- The payload of the tile of a key, if it stands in line and has done so for no more than 1000 ms. -/
def get (line : Line) (key : TileKey) (now : Int) : Option ByteArray :=
  match line.find? (·.1 == key) with
  | none => none
  | some (_, waiting) => if now - waiting.since ≤ 1000 then some waiting.blob else none

/-- A line after a call. -/
def perform (line : Line) : HandoverCall → Line
  | .offer tile now => match tile.blob with
    | none => line
    | some blob => line.put tile.key blob now
  | .collect tile _ => line.without tile.key

/-- A line after some calls. -/
def performAll (line : Line) (calls : List HandoverCall) : Line := calls.foldl perform line

/-- What is answered to those of some calls that ask for a tile. -/
def answers (line : Line) : List HandoverCall → List (Bool × Tile)
  | [] => []
  | .offer tile now :: calls => (line.perform (.offer tile now)).answers calls
  | .collect tile now :: calls =>
    ((line.get tile.key now).isSome, tile.withBlob (line.get tile.key now)) ::
      (line.perform (.collect tile now)).answers calls

variable {line : Line} {key : TileKey} {item : TileKey × Waiting}

/-- A line without a key has all its other tiles. -/
theorem mem_without : item ∈ line.without key ↔ item ∈ line ∧ item.1 ≠ key := by
  rw [without, List.mem_filter, bne_iff_ne]

/-- The keys of a line without one of them are the other ones. -/
theorem map_fst_without (line : Line) (key : TileKey) :
    (line.without key).map Prod.fst = (line.map Prod.fst).filter (· != key) := by
  rw [without, List.filter_map]
  rfl

/-- A line that does not have a key stays what it is without it. -/
theorem without_of_not_mem (h : key ∉ line.map Prod.fst) : line.without key = line :=
  List.filter_eq_self.mpr fun _ hitem => bne_iff_ne.mpr fun heq => h (heq ▸ List.mem_map_of_mem hitem)

/-- A line is shortened from the front while it is too long. -/
theorem shortened_cons (item : TileKey × Waiting) (line : Line) :
    shortened (item :: line) = if 100 < (item :: line).length then line.shortened else item :: line := by
  unfold shortened
  rw [List.length_cons]
  split
  · rw [show line.length + 1 - 100 = (line.length - 100) + 1 by omega, List.drop_succ_cons]
  · rw [show line.length + 1 - 100 = 0 by omega, List.drop_zero]

end Line

/-! ## Table and order -/

/-- A handover in which some tiles stand in line. -/
structure Holds (handover : Handover) (line : Line) : Prop where
  order : handover.order = line.map Prod.fst
  distinct : (line.map Prod.fst).Nodup
  waiting : ∀ item : TileKey × Waiting, handover.waiting[item.1]? = some item.2 ↔ item ∈ line

variable {handover : Handover} {line : Line}

/-- The keys in the order are those of the tiles that wait. -/
theorem Holds.mem_order (h : handover.Holds line) {key : TileKey} : key ∈ handover.order ↔ key ∈ handover.waiting := by
  rw [h.order, Table.mem_iff_exists, List.mem_map]
  constructor
  · rintro ⟨item, hitem, rfl⟩
    exact ⟨item.2, (h.waiting item).mpr hitem⟩
  · rintro ⟨waiting, hwaiting⟩
    exact ⟨(key, waiting), (h.waiting (key, waiting)).mp hwaiting, rfl⟩

/-- A tile is found in line as it is found in the table. -/
theorem Holds.find? (h : handover.Holds line) (key : TileKey) :
    line.find? (·.1 == key) = (handover.waiting[key]?).map fun waiting => (key, waiting) := by
  cases hfind : line.find? (·.1 == key) with
  | some item =>
    have hkey := List.find?_some hfind
    simp only [beq_iff_eq] at hkey
    rw [← hkey, (h.waiting item).mpr (List.mem_of_find?_eq_some hfind)]
    rfl
  | none =>
    cases hwaiting : handover.waiting[key]? with
    | none => rfl
    | some waiting =>
      have hmem : (key, waiting) ∈ line := (h.waiting (key, waiting)).mp hwaiting
      exact absurd (beq_self_eq_true key) (List.find?_eq_none.mp hfind (key, waiting) hmem)

/-- What is held without a key is the line without it. -/
theorem Holds.without (h : handover.Holds line) (key : TileKey) :
    Holds ⟨handover.waiting.erase key, handover.order.filter (· != key)⟩ (line.without key) where
  order := by rw [Line.map_fst_without, h.order]
  distinct := h.distinct.sublist (List.filter_sublist.map _)
  waiting item := by
    rw [Line.mem_without, ← h.waiting, Table.getElem?_erase]
    split
    · rename_i hkey
      simp [hkey]
    · rename_i hkey
      exact (and_iff_left (Ne.symm hkey)).symm

/-- The place that a tile had is given up before it takes the last one, whether it had one or not. -/
theorem Holds.joined (h : handover.Holds line) (key : TileKey) (blob : ByteArray) (now : Int) :
    Holds ⟨handover.waiting.insert key ⟨blob, now⟩,
      (if handover.waiting.contains key then handover.order.filter (· != key) else handover.order) ++ [key]⟩
      (line.without key ++ [(key, ⟨blob, now⟩)]) where
  order := by
    rw [List.map_append, Line.map_fst_without, ← h.order]
    refine congrArg (· ++ [key]) ?_
    split
    · rfl
    · rename_i hkey
      refine (List.filter_eq_self.mpr fun other hother => bne_iff_ne.mpr ?_).symm
      rintro rfl
      exact hkey (Std.ExtTreeMap.contains_iff_mem.mpr (h.mem_order.mp hother))
  distinct := by
    rw [List.map_append, List.nodup_append']
    refine ⟨(h.without key).distinct, List.nodup_singleton key, fun other hother hsame => ?_⟩
    obtain ⟨item, hitem, rfl⟩ := List.mem_map.mp hother
    exact (Line.mem_without.mp hitem).2 (List.mem_singleton.mp hsame)
  waiting item := by
    rw [Table.getElem?_insert, List.mem_append, Line.mem_without, List.mem_singleton, ← h.waiting]
    split
    · rename_i hkey
      simp [Prod.ext_iff, hkey, eq_comm]
    · rename_i hkey
      simp [Prod.ext_iff, Ne.symm hkey]

/-- The first tile of the line gone. -/
theorem Holds.tail {waiting : Std.ExtTreeMap TileKey Waiting} {item : TileKey × Waiting}
    (h : Holds ⟨waiting, (item :: line).map Prod.fst⟩ (item :: line)) :
    Holds ⟨waiting.erase item.1, line.map Prod.fst⟩ line where
  order := rfl
  distinct := (List.nodup_cons.mp h.distinct).2
  waiting other := by
    have hfirst : item.1 ∉ line.map Prod.fst := (List.nodup_cons.mp h.distinct).1
    rw [Table.getElem?_erase]
    split
    · rename_i hkey
      exact iff_of_false nofun fun hother => hfirst (hkey ▸ List.mem_map_of_mem hother)
    · rename_i hkey
      rw [h.waiting, List.mem_cons]
      exact or_iff_right fun heq => hkey (congrArg Prod.fst heq.symm)

/-- A handover in which no more than a hundred tiles stand in line. -/
structure Keeps (handover : Handover) (line : Line) : Prop extends handover.Holds line where
  length : line.length ≤ 100

/-- The first tiles go while there are more than may wait. -/
theorem Holds.trim (h : handover.Holds line) : (trim handover.waiting handover.order).Keeps line.shortened := by
  obtain ⟨waiting, order⟩ := handover
  obtain rfl := h.order
  induction line generalizing waiting with
  | nil => exact ⟨h, Nat.zero_le 100⟩
  | cons item line ih =>
    rw [Line.shortened_cons]
    simp only [List.map_cons, Handover.trim, List.length_cons, List.length_map, capacity]
    split
    · exact ih _ h.tail
    · rename_i hfits
      exact ⟨h, Nat.le_of_not_lt hfits⟩

/-! ## One call -/

/-- To take a tile takes it out of the line, whatever its age. -/
theorem Holds.take (h : handover.Holds line) (key : TileKey) (now : Int) : (handover.take key now).2.Holds (line.without key) := by
  unfold Handover.take
  cases hwaiting : handover.waiting[key]? with
  | some waiting => exact h.without key
  | none =>
    have habsent : key ∉ line.map Prod.fst := by
      rw [← h.order, h.mem_order, Table.mem_iff_exists, hwaiting]
      exact fun ⟨_, hsome⟩ => nomatch hsome
    rw [Line.without_of_not_mem habsent]
    exact h

/-- A call does to what is kept what it does to the line. -/
theorem Keeps.perform (h : handover.Keeps line) (call : HandoverCall) : (handover.perform call).Keeps (line.perform call) := by
  cases call with
  | offer tile now =>
    simp only [Handover.perform, Line.perform, offer]
    cases tile.blob with
    | none => exact h
    | some blob => exact (h.toHolds.joined tile.key blob now).trim
  | collect tile now =>
    exact ⟨h.toHolds.take tile.key now, (List.length_filter_le _ _).trans h.length⟩

/-! ## All calls -/

/-- So do some calls. -/
theorem Keeps.performAll (h : handover.Keeps line) (calls : List HandoverCall) :
    (handover.performAll calls).Keeps (line.performAll calls) := by
  induction calls generalizing handover line with
  | nil => exact h
  | cons call calls ih => exact ih (h.perform call)

/-! ## Who stands in line -/

namespace Line

variable {item : TileKey × Waiting} {call : HandoverCall}

end Line

/-- What there is to be said of a tile that stands in line after some calls: it was put there, and has not been touched nor gone
from the line since. -/
structure Stands (calls : List HandoverCall) (item : TileKey × Waiting) (before : List HandoverCall) (tile : Tile)
    (between : List HandoverCall) : Prop where
  calls_eq : calls = before ++ .offer tile item.2.since :: between
  key : tile.key = item.1
  blob : tile.blob = some item.2.blob
  untouched : ∀ call ∈ between, call.touches item.1 = false
  stays : ∀ first, first <+: between → item.1 ∈ (empty.performAll (before ++ .offer tile item.2.since :: first)).order

end Handover

end TileDepot
