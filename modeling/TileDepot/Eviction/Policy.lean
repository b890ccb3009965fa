import TileDepot.Page.Ledger

/-!
# Expiration policies

A policy orders the pages of a depot: the page that comes first is the first to go. The least recently used policy goes by
the last access, the least frequently used one by the frequency of use in the total order of numbers. Pages that are equal
in that go by zoom, the highest first, and then by their keys, so that no two different pages are equal.

A table holds policies by name. The two policies are all that can be put into one here, so a table may hold both, either or
none of them; orders of a caller's own making are not described.
-/

namespace TileDepot

/-- Which pages go first. -/
inductive Policy where
  /-- The page whose last access is longest ago. -/
  | leastRecent
  /-- The page that is used least often. -/
  | leastFrequent
deriving Repr, DecidableEq, Inhabited

namespace Policy

/-- The name a policy is chosen by. -/
def name : Policy → String
  | leastRecent => "LRU"
  | leastFrequent => "LFU"

/-- The number a policy goes by. -/
def measure : Policy → PageStats → Int
  | leastRecent, stats => stats.lastAccess
  | leastFrequent, stats => Binary64.rank stats.frequency

/-- The order of two pages under a policy. -/
def order (policy : Policy) : PageEntry → PageEntry → Ordering :=
  compareLex (compareOn fun entry => policy.measure entry.stats)
    (compareLex (fun a b => compare b.page.zoom a.page.zoom) (compareOn fun entry => entry.page.key))

/-- Pages in the order in which they go. -/
def sort (policy : Policy) (pages : List PageEntry) : List PageEntry :=
  pages.mergeSort fun a b => (policy.order a b).isLE

end Policy

/-- The policies that can be chosen, by name. -/
abbrev PolicyTable := Std.ExtTreeMap String Policy

namespace PolicyTable

/-- A table with one more policy. -/
def register (table : PolicyTable) (policy : Policy) : PolicyTable := table.insert policy.name policy

/-- The table of all policies. -/
def default : PolicyTable := register (register ∅ .leastRecent) .leastFrequent

/-- The policy of a name. -/
def find (table : PolicyTable) (name : String) : Except Error Policy :=
  match table[name]? with
  | some policy => .ok policy
  | none => .error (.notFound s!"expiration policy {name}")

/-- The table in words: the names of its policies. -/
def text (table : PolicyTable) : String :=
  let names := table.keys.map fun name => "\"" ++ name ++ "\""
  "PolicyRegistry \x7b policies: [" ++ ", ".intercalate names ++ "] \x7d"

end PolicyTable

end TileDepot
