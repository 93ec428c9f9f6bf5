import PlcAudit.Data.Table

/-!
Depth-first search in a directed graph: cycles that it meets, and the length of the longest path
from a node where there is no cycle. A search never enters a node that lies on its path, so its
depth is bounded by the number of nodes.
-/

namespace PlcAudit.Graph

/-- A directed graph by its nodes, in order, and the nodes that each leads to. -/
structure Adjacency where
  keys : List String
  next : String → List String

/-- The cycle that an edge to `node` closes, where `path` holds the nodes of a search with the
latest first. It starts at `node`. -/
def cycleTo (node : String) (path : List String) : List String :=
  node :: (path.takeWhile (· ≠ node)).reverse

def smaller (left right : String) : String :=
  if compare right left == .lt then right else left

/-- The cycle as it is read from its smallest node. -/
def rotated (cycle : List String) : List String :=
  match cycle with
  | [] => []
  | first :: rest =>
    let smallest := rest.foldl smaller first
    cycle.dropWhile (· ≠ smallest) ++ cycle.takeWhile (· ≠ smallest)

/-- Where a search stands: the nodes it is done with and the cycles it met, in order. -/
structure CycleSearch where
  done : List String := []
  cycles : List (List String) := []
  deriving DecidableEq, Inhabited, Repr

namespace CycleSearch

/-- Notes a cycle that was not met before. -/
def note (search : CycleSearch) (cycle : List String) : CycleSearch :=
  if search.cycles.contains cycle then search
  else { search with cycles := search.cycles ++ [cycle] }

/-- Searches from a node that is neither done nor on the path. An edge to a node on the path closes
a cycle. -/
def explore (next : String → List String) :
    Nat → List String → String → CycleSearch → CycleSearch
  | 0, _, _, search => search
  | fuel + 1, path, node, search =>
    let path := node :: path
    let search := (next node).foldl
      (fun search child =>
        if path.contains child then search.note (rotated (cycleTo child path))
        else if search.done.contains child then search
        else explore next fuel path child search)
      search
    { search with done := node :: search.done }

end CycleSearch

/-- The cycles that a search from all nodes in order meets, each read from its smallest node. -/
def Adjacency.cycles (graph : Adjacency) : List (List String) :=
  let found : CycleSearch := graph.keys.foldl
    (fun search start =>
      if search.done.contains start then search
      else search.explore graph.next graph.keys.length [] start)
    {}
  found.cycles

/-- One more than the greatest known depth among nodes; zero where none is known. -/
def depthAbove (known : Table String Nat) (nodes : List String) : Nat :=
  ((nodes.filterMap known.find?).map (· + 1)).foldl max 0

/-- Adds the depth of a node, and of all nodes it leads to, to those that are known. The error is
the first cycle that is met. -/
def addDepths (next : String → List String) :
    Nat → List String → String → Table String Nat → Except (List String) (Table String Nat)
  | 0, _, _, known => .ok known
  | fuel + 1, path, node, known => do
    let path := node :: path
    let known ← (next node).foldlM
      (fun known child =>
        if known.contains child then .ok known
        else if path.contains child then .error (cycleTo child path)
        else addDepths next fuel path child known)
      known
    return known.insert node (depthAbove known (next node))

namespace Adjacency

/-- The depths of a node and of all it leads to, added to those that are known. -/
def depths (graph : Adjacency) (start : String) (known : Table String Nat) :
    Except (List String) (Table String Nat) :=
  if known.contains start then .ok known
  else addDepths graph.next graph.keys.length [] start known

/-- Number of edges of the longest path from a node, or a cycle that can be reached from it. -/
def depthFrom (graph : Adjacency) (start : String) : Except (List String) Nat := do
  let known ← graph.depths start .empty
  return (known.find? start).getD 0

/-- Number of edges of the longest path, or a cycle. -/
def maxDepth (graph : Adjacency) : Except (List String) Nat := do
  let known ← graph.keys.foldlM (fun known start => graph.depths start known) .empty
  return known.values.foldl max 0

end Adjacency

end PlcAudit.Graph
