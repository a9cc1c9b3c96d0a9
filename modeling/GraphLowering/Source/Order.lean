import GraphLowering.Source.Graph

/-!
# Topological order

The nodes of a graph in reverse postorder of a depth-first search: every node stands before the
nodes that its data and control edges lead to. The search tries the nodes in the order of their
places and follows the edges of a node in the order of their insertion, so the order is fixed by how
the graph was built. An edge back into the path of the search closes a cycle, and a graph with a
cycle has no order.

The search keeps its path on a stack of frames. Each step either closes the frame on top or passes
one edge of it, and no node and no edge is passed twice, so the number of nodes and edges bounds the
number of steps.

* `Mark` — what the search knows of a node.
* `Search` — the marks and the order so far.
* `Graph.explore` — the search from a stack of frames.
* `Graph.order` — the whole order.
-/

namespace GraphLowering.Source

/-- What a depth-first search knows of a node: it has not been met, it lies on the path, or all it
leads to has been ordered. -/
inductive Mark where
  | new
  | opened
  | done
  deriving DecidableEq

/-- A node on the path of the search with the edges that it has still to follow. -/
structure Frame where
  node : Nat
  rest : List Nat
  deriving DecidableEq

/-- The state of a search: a mark for each node, and the ordered nodes, the last to be closed
first. -/
structure Search where
  marks : Array Mark
  order : List Nat
  deriving DecidableEq

namespace Graph

/-- Follows the frames of a stack until it is empty, for at most `bound` steps. -/
def explore (g : Graph) : (bound : Nat) → List Frame → Search → Except Error Search
  | _, [], search => .ok search
  | 0, _ :: _, _ => .error (.internal .searchBound)
  | bound + 1, ⟨v, []⟩ :: stack, search =>
    g.explore bound stack ⟨search.marks.setIfInBounds v .done, v :: search.order⟩
  | bound + 1, ⟨v, e :: rest⟩ :: stack, search =>
    match g.edges[e]? with
    | none => .error (.internal (.sourceEdge e))
    | some edge =>
      match g.nodes[edge.dst]?, search.marks[edge.dst]? with
      | some next, some .new =>
        g.explore bound (⟨edge.dst, next.outEdges⟩ :: ⟨v, rest⟩ :: stack)
          { search with marks := search.marks.setIfInBounds edge.dst .opened }
      | some next, some .opened => .error (.invalid (.cycle next.name))
      | some _, some .done => g.explore bound (⟨v, rest⟩ :: stack) search
      | _, _ => .error (.internal (.sourceNode edge.dst))

/-- Starts the search at a node that it has not met. -/
def exploreFrom (g : Graph) (search : Search) (root : Nat) : Except Error Search :=
  match g.nodes[root]?, search.marks[root]? with
  | some v, some .new =>
    g.explore (g.nodes.size + g.edges.size) [⟨root, v.outEdges⟩]
      { search with marks := search.marks.setIfInBounds root .opened }
  | some _, some _ => .ok search
  | _, _ => .error (.internal (.sourceNode root))

/-- All nodes in reverse postorder. -/
def order (g : Graph) : Except Error (List Nat) := do
  let start : Search := ⟨Array.replicate g.nodes.size .new, []⟩
  let search ← (List.range g.nodes.size).foldlM g.exploreFrom start
  return search.order

end Graph

end GraphLowering.Source
