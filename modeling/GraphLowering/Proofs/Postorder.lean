import Mathlib
import GraphLowering.Proofs.SearchTurns

/-!
# The recursive search

`Graph.order` searches a graph with a stack of frames. The same search is shorter as a recursion: to
visit a node is to visit first the nodes that its edges lead to, and then to put the node at the end
of the postorder. Here the recursion is written down on its own, and the stack is read as the calls
that the recursion has still to return from. No turn of the loop changes what the recursion will have
found at its end, so the loop finds its postorder, reversed.

* `Visits`, `visitAll` — the state of the recursion, and the recursion.
* `Graph.successors`, `Graph.postorder` — the nodes that the edges of a node lead to, in the order of
  their insertion, and the postorder of a whole graph.
* `Graph.unwind`, `Graph.outcome` — what the recursion makes of the frames on a stack, and of a
  search between two turns.
* `Graph.Turn.outcome_eq`, `Graph.Turns.outcome_eq` — a turn, and a number of turns, keep the
  outcome.
* `Graph.order_eq_reverse_postorder` — the order is the reverse of the postorder.
-/

namespace GraphLowering.Source

/-! ### The recursion -/

/-- The state of a recursive search: the nodes it has not visited yet, and the postorder so far. -/
structure Visits where
  unvisited : Finset Nat
  post : List Nat

/-- The state once a node has been visited with all that it leads to. -/
def Visits.finish (s : Visits) (v : Nat) : Visits := { s with post := s.post ++ [v] }

/-- Visits the nodes of a list one after the other and skips those visited before. To visit a node is
to mark it, to visit the nodes that come next from it, and to put it at the end of the postorder. The
recursion ends because no node becomes unvisited again. -/
def visitAll (next : Nat → List Nat) (vs : List Nat) (s : Visits) :
    { s' : Visits // s'.unvisited ⊆ s.unvisited } :=
  match vs with
  | [] => ⟨s, Finset.Subset.refl _⟩
  | v :: vs =>
    if _hv : v ∈ s.unvisited then
      let inner := visitAll next (next v) { s with unvisited := s.unvisited.erase v }
      let rest := visitAll next vs (inner.1.finish v)
      ⟨rest.1, rest.2.trans (inner.2.trans (Finset.erase_subset v s.unvisited))⟩
    else visitAll next vs s
termination_by (s.unvisited.card, vs.length)
decreasing_by
  · exact Prod.Lex.left _ _ (Finset.card_erase_lt_of_mem _hv)
  · have hle : inner.1.unvisited.card ≤ (s.unvisited.erase v).card := Finset.card_le_card inner.2
    exact Prod.Lex.left _ _ (hle.trans_lt (Finset.card_erase_lt_of_mem _hv))
  · exact Prod.Lex.right _ (Nat.lt_succ_self vs.length)

namespace Graph

/-- The nodes that the edges out of a node lead to, in the order in which the edges were inserted. -/
def successors (g : Graph) (i : Nat) : List Nat :=
  (g.edges.toList.filter (·.src = i)).map (·.dst)

/-- The state after the nodes of a list have been visited. -/
def visit (g : Graph) (vs : List Nat) (s : Visits) : Visits := (visitAll g.successors vs s).1

/-- The postorder of a recursive search that tries all nodes in the order of their places. -/
def postorder (g : Graph) : List Nat :=
  (g.visit (List.range g.nodes.size) ⟨Finset.range g.nodes.size, []⟩).post

variable {g : Graph} {v : Nat} {vs : List Nat} {s : Visits}

@[simp] theorem visit_nil : g.visit [] s = s := by
  rw [visit, visitAll]

theorem visit_cons_of_mem (hv : v ∈ s.unvisited) :
    g.visit (v :: vs) s =
      g.visit vs ((g.visit (g.successors v) { s with unvisited := s.unvisited.erase v }).finish v) := by
  rw [visit, visitAll, dif_pos hv]
  rfl

theorem visit_cons_of_not_mem (hv : v ∉ s.unvisited) : g.visit (v :: vs) s = g.visit vs s := by
  rw [visit, visitAll, dif_neg hv]
  rfl

/-! ### Marks and edges -/

end Graph

/-- What the recursion knows where the loop has come to: the nodes without a mark are unvisited, and
the order so far is the postorder reversed. -/
def Search.visits (s : Search) : Visits where
  unvisited := (Finset.range s.marks.size).filter fun i => s.marks[i]? = some .new
  post := s.order.reverse

theorem Search.mem_unvisited {s : Search} {i : Nat} :
    i ∈ s.visits.unvisited ↔ s.marks[i]? = some .new := by
  rw [Search.visits, Finset.mem_filter, Finset.mem_range]
  constructor
  · exact fun h => h.2
  · exact fun h => ⟨(Array.getElem?_eq_some_iff.mp h).1, h⟩

theorem Search.not_mem_unvisited {s : Search} {i : Nat} {mark : Mark}
    (hi : s.marks[i]? = some mark) (hmet : mark ≠ .new) : i ∉ s.visits.unvisited := by
  rw [Search.mem_unvisited, hi]
  simpa using hmet

/-- To open a node is to visit it. -/
theorem Search.visits_open {s : Search} {i : Nat} (hi : s.marks[i]? = some .new) :
    ({ s with marks := s.marks.setIfInBounds i .opened } : Search).visits =
      { s.visits with unvisited := s.visits.unvisited.erase i } := by
  have hlt : i < s.marks.size := (Array.getElem?_eq_some_iff.mp hi).1
  have hset : ({ s with marks := s.marks.setIfInBounds i .opened } : Search).visits.unvisited =
      s.visits.unvisited.erase i := by
    ext j
    rw [Finset.mem_erase, mem_unvisited, mem_unvisited, marks_set hlt]
    by_cases hj : i = j
    · simp [hj]
    · rw [if_neg hj]
      exact ⟨fun h => ⟨Ne.symm hj, h⟩, fun h => h.2⟩
  rw [← hset]
  rfl

/-- To close a node is to finish it. -/
theorem Search.visits_close {s : Search} {i : Nat} (hi : s.marks[i]? = some .opened) :
    (⟨s.marks.setIfInBounds i .done, i :: s.order⟩ : Search).visits = s.visits.finish i := by
  have hlt : i < s.marks.size := (Array.getElem?_eq_some_iff.mp hi).1
  have hset : (⟨s.marks.setIfInBounds i .done, i :: s.order⟩ : Search).visits.unvisited =
      s.visits.unvisited := by
    ext j
    rw [mem_unvisited, mem_unvisited, marks_set hlt]
    by_cases hj : i = j
    · subst hj
      simp [hi]
    · rw [if_neg hj]
  rw [Visits.finish, ← hset]
  simp [Search.visits]

theorem filterMap_filter_range {α : Type} (p : α → Bool) (l : List α) :
    ((List.range l.length).filter fun k => l[k]?.any p).filterMap (l[·]?) = l.filter p := by
  induction l with
  | nil => rfl
  | cons a l ih =>
    rw [List.length_cons, List.range_succ_eq_map, List.filter_cons, List.filter_map]
    have htail : (fun k => (a :: l)[k]?.any p) ∘ Nat.succ = fun k => l[k]?.any p := by
      funext k
      simp
    rw [htail, List.filter_cons]
    by_cases ha : p a
    · simp [ha, List.filterMap_map, ih]
    · simp [ha, List.filterMap_map, ih]

namespace Graph

variable {g : Graph} {i k : Nat} {rest : List Nat} {e : Edge}

/-- The nodes that the listed edges lead to. -/
def targets (g : Graph) (ids : List Nat) : List Nat := (g.edgesOf ids).map (·.dst)

@[simp] theorem targets_nil : g.targets [] = [] := rfl

theorem targets_cons (he : g.edges[k]? = some e) :
    g.targets (k :: rest) = e.dst :: g.targets rest := by
  simp [targets, edgesOf, he]

/-- A node keeps its edges in the order of their insertion. -/
theorem targets_outEdges (wf : g.WellFormed) {v : Node} (hv : g.nodes[i]? = some v) :
    g.targets v.outEdges = g.successors i := by
  have hedges : g.edgesOf (g.numbersWhere (·.src = i)) = g.edges.toList.filter (·.src = i) := by
    rw [← filterMap_filter_range]
    simp [edgesOf, numbersWhere]
  rw [targets, wf.outEdges i v hv, hedges, successors]

/-! ### The stack as calls to return from -/

/-- What the recursion makes of the frames of a stack, the newest first: it visits what the edges of
a frame still lead to, finishes the node of the frame, and returns to the frame below. -/
def unwind (g : Graph) : List Frame → Visits → Visits
  | [], s => s
  | ⟨v, rest⟩ :: stack, s => g.unwind stack ((g.visit (g.targets rest) s).finish v)

/-- What the recursion will have found at its end: it returns from the frames on the stack, and then
tries the roots that are left. -/
def outcome (g : Graph) (w : Walk) : Visits := g.visit w.roots (g.unwind w.stack w.search.visits)

/-- A node that the search opens is one that the recursion visits. -/
theorem unwind_open (wf : g.WellFormed) {s : Search} {v : Node} (hv : g.nodes[i]? = some v)
    (hi : s.marks[i]? = some .new) (stack : List Frame) :
    g.unwind (⟨i, v.outEdges⟩ :: stack)
        { s with marks := s.marks.setIfInBounds i .opened }.visits =
      g.unwind stack ((g.visit (g.successors i)
        { s.visits with unvisited := s.visits.unvisited.erase i }).finish i) := by
  rw [unwind, targets_outEdges wf hv, Search.visits_open hi]

/-- No turn changes what the recursion will have found. -/
theorem Turn.outcome_eq (wf : g.WellFormed) {w w' : Walk} (hw : g.Sound w) (h : g.Turn w w') :
    g.outcome w' = g.outcome w := by
  cases h with
  | root hnode hmark =>
    rw [outcome, outcome, unwind_open wf hnode hmark, unwind, unwind,
      visit_cons_of_mem (Search.mem_unvisited.mpr hmark)]
  | pass hnode hmark hmet =>
    rw [outcome, outcome, unwind, visit_cons_of_not_mem (Search.not_mem_unvisited hmark hmet)]
  | close =>
    rw [outcome, outcome, unwind, targets_nil, visit_nil,
      Search.visits_close hw.consistent.top_opened]
  | enter hedge hnode hmark =>
    rw [outcome, outcome, unwind_open wf hnode hmark, unwind, unwind, targets_cons hedge,
      visit_cons_of_mem (Search.mem_unvisited.mpr hmark)]
  | skip hedge hnode hmark =>
    rw [outcome, outcome, unwind, unwind, targets_cons hedge,
      visit_cons_of_not_mem (Search.not_mem_unvisited hmark (by simp))]

theorem Turns.outcome_eq (wf : g.WellFormed) {n : Nat} {w w' : Walk} (hw : g.Sound w)
    (h : g.Turns n w w') : g.outcome w' = g.outcome w := by
  induction h with
  | zero => rfl
  | succ first _ ih => rw [ih (hw.turn wf first), first.outcome_eq wf hw]

/-! ### The order -/

theorem visits_start (g : Graph) :
    g.start.search.visits = ⟨Finset.range g.nodes.size, []⟩ := by
  have hset : g.start.search.visits.unvisited = Finset.range g.nodes.size := by
    ext i
    simp [Search.mem_unvisited, start, Array.getElem?_replicate]
  rw [← hset]
  rfl

/-- Before the first turn the outcome is the whole recursive search. -/
theorem post_outcome_start (g : Graph) : (g.outcome g.start).post = g.postorder := by
  rw [outcome, visits_start]
  rfl

/-- **The order is the reverse of the postorder.** The loop with its stack of frames finds for every
graph without a cycle what the recursive search finds. -/
theorem order_eq_reverse_postorder {g : Graph} (hbuilt : g.Built) (hacyclic : g.Acyclic) :
    g.order = .ok g.postorder.reverse := by
  have wf := hbuilt.wellFormed
  obtain ⟨order, horder⟩ := hacyclic.order wf
  obtain ⟨n, w, hturns, hanswer⟩ := order_turns wf
  have hkept := hturns.outcome_eq wf (sound_start g)
  rw [horder] at hanswer ⊢
  -- the search has stopped with no root and no frame left
  cases hanswer with
  | @order s =>
    have hend : (g.outcome ⟨[], [], s⟩).post = s.order.reverse := by
      rw [outcome, unwind, visit_nil]
      rfl
    rw [← post_outcome_start, ← hkept, hend, List.reverse_reverse]

/-- Two nodes that share a successor, with edges of both kinds that were inserted against the order
of the nodes, and an edge that the search meets again once its end is ordered. -/
def sharedTarget : List Call := [
  .node { name := "low", op := "Neg" }, .node { name := "high", op := "Split", outputs := 2 },
  .node { name := "sum", op := "Add" }, .node { name := "last", op := "Neg" },
  .control 1 3, .edge 1 1 2 1, .edge 0 0 2 0, .edge 2 0 3 0, .control 1 0]

theorem sharedTarget_postorder :
    (build sharedTarget).order = .ok [1, 0, 2, 3] ∧ (build sharedTarget).Acyclic ∧
    (build sharedTarget).postorder = [3, 2, 0, 1] := by
  have horder : (build sharedTarget).order = .ok [1, 0, 2, 3] := by rfl
  have hbuilt : (build sharedTarget).Built := ⟨_, rfl⟩
  have hacyclic := acyclic_of_order hbuilt.wellFormed horder
  have heq := order_eq_reverse_postorder hbuilt hacyclic
  rw [horder] at heq
  exact ⟨horder, hacyclic, List.reverse_eq_iff.mp (Except.ok.inj heq).symm⟩

end Graph

end GraphLowering.Source
