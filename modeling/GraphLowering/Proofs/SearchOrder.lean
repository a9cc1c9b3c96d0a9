import Mathlib
import GraphLowering.Source.Order
import GraphLowering.Proofs.SourceGraph

/-!
# The order of a graph

The search either orders all nodes, each before the nodes it leads to, or names a node on a cycle.
The argument follows the steps of `Graph.explore`:

* `Graph.Leads`, `Graph.Acyclic` — edges of both kinds as a relation, and graphs without a cycle.
* `Graph.Ordered` — a list in which every node stands before the nodes it leads to.
* `Consistent` — what the marks, the stack and the order say of each other. One lemma for each kind
  of step says that it is kept (`close`, `enter`, `skip`).
* `weight`, `fresh` — the steps still to be made, which every step lowers by one.
* `Graph.order_cases` — an order of all nodes, or a node on a cycle.
-/

namespace GraphLowering.Source

namespace Graph

/-- An edge of either kind leads from one node to another. -/
def Leads (g : Graph) (i j : Nat) : Prop := ∃ e ∈ g.edges, e.src = i ∧ e.dst = j

/-- No path of edges leads from a node back to it. -/
def Acyclic (g : Graph) : Prop := ∀ i, ¬ Relation.TransGen g.Leads i i

/-- Every node of a list stands before the nodes it leads to, and all of these are listed. -/
def Ordered (g : Graph) : List Nat → Prop
  | [] => True
  | i :: rest => (∀ j, g.Leads i j → j ∈ rest) ∧ g.Ordered rest

theorem Leads.src_lt {g : Graph} (wf : g.WellFormed) {i j : Nat} (h : g.Leads i j) :
    i < g.nodes.size := by
  obtain ⟨e, he, rfl, -⟩ := h
  exact (wf.ends e he).1

/-- In an ordered list the part behind a node holds all that the node leads to. -/
theorem Ordered.of_append {g : Graph} {front back : List Nat} {i j : Nat}
    (h : g.Ordered (front ++ i :: back)) (hij : g.Leads i j) : j ∈ back := by
  induction front with
  | nil => exact h.1 j hij
  | cons k front ih => exact ih h.2

/-! ### Frames -/

/-- The frames of a stack, the newest first, below a frame for node `next`. Each frame still has to
follow the edges that neither end in the order nor lead to the frame above it. -/
def Frames (g : Graph) (order : List Nat) : (next : Option Nat) → List Frame → Prop
  | _, [] => True
  | next, ⟨v, rest⟩ :: stack =>
    v ∉ stack.map (·.node) ∧
    (∀ k ∈ rest, ∃ e, g.edges[k]? = some e ∧ e.src = v) ∧
    (∀ j, g.Leads v j →
      j ∈ order ∨ next = some j ∨ ∃ k ∈ rest, ∃ e, g.edges[k]? = some e ∧ e.dst = j) ∧
    (∀ j, next = some j → g.Leads v j) ∧
    g.Frames order (some v) stack

theorem Frames.mono {g : Graph} {order order' : List Nat} (hsub : ∀ i ∈ order, i ∈ order') :
    ∀ {next : Option Nat} {stack : List Frame}, g.Frames order next stack →
      g.Frames order' next stack := by
  intro next stack
  induction stack generalizing next with
  | nil => intro _; trivial
  | cons frame stack ih =>
    rintro ⟨hnot, hrest, hleft, hnext, htail⟩
    refine ⟨hnot, hrest, fun j hj => ?_, hnext, ih htail⟩
    rcases hleft j hj with h | h
    · exact .inl (hsub j h)
    · exact .inr h

/-- Once a node is ordered, the frame below it no longer waits for it. -/
theorem Frames.close {g : Graph} {order : List Nat} {v : Nat} {stack : List Frame}
    (h : g.Frames order (some v) stack) : g.Frames (v :: order) none stack := by
  cases stack with
  | nil => trivial
  | cons frame stack =>
    obtain ⟨hnot, hrest, hleft, -, htail⟩ := h
    refine ⟨hnot, hrest, fun j hj => ?_, by simp, htail.mono fun i hi => List.mem_cons_of_mem v hi⟩
    rcases hleft j hj with h | h | h
    · exact .inl (List.mem_cons_of_mem v h)
    · cases h
      exact .inl List.mem_cons_self
    · exact .inr (.inr h)

/-- From every node on the stack a path leads to the node on top. -/
theorem Frames.reach {g : Graph} {order : List Nat} {i : Nat} :
    ∀ {next : Option Nat} {v : Nat} {rest : List Nat} {stack : List Frame},
      g.Frames order next (⟨v, rest⟩ :: stack) →
      i ∈ (⟨v, rest⟩ :: stack : List Frame).map (·.node) →
      Relation.ReflTransGen g.Leads i v := by
  intro next v rest stack
  induction stack generalizing next v rest with
  | nil =>
    intro _ hi
    rw [List.map_cons, List.map_nil, List.mem_singleton] at hi
    rw [hi]
  | cons frame stack ih =>
    rintro ⟨-, -, -, -, htail⟩ hi
    rw [List.map_cons, List.mem_cons] at hi
    rcases hi with rfl | hi
    · rfl
    · exact (ih htail hi).tail (htail.2.2.2.1 v rfl)

end Graph

/-! ### Marks, stack and order -/

/-- What the marks, the stack and the order of a search say of each other. -/
structure Consistent (g : Graph) (stack : List Frame) (s : Search) : Prop where
  size : s.marks.size = g.nodes.size
  done : ∀ i, s.marks[i]? = some .done ↔ i ∈ s.order
  opened : ∀ i, s.marks[i]? = some .opened ↔ i ∈ stack.map (·.node)
  nodup : s.order.Nodup
  ordered : g.Ordered s.order
  frames : g.Frames s.order none stack

theorem marks_set {marks : Array Mark} {v i : Nat} {m : Mark} (hv : v < marks.size) :
    (marks.setIfInBounds v m)[i]? = if v = i then some m else marks[i]? := by
  rw [Array.getElem?_setIfInBounds, if_pos hv]

/-- Marking a node as met leaves no node new that was not. -/
theorem marks_set_ne_new {marks : Array Mark} {v i : Nat} {m : Mark} (hv : v < marks.size)
    (hm : m ≠ .new) (hi : i = v ∨ marks[i]? ≠ some .new) :
    (marks.setIfInBounds v m)[i]? ≠ some .new := by
  rw [marks_set hv]
  split
  case isTrue => simpa using hm
  case isFalse hne => exact hi.resolve_left (Ne.symm hne)

namespace Consistent

variable {g : Graph} {s : Search} {stack : List Frame} {v k : Nat} {rest : List Nat}

theorem top_opened (h : Consistent g (⟨v, rest⟩ :: stack) s) : s.marks[v]? = some .opened :=
  (h.opened v).mpr (by simp)

theorem lt_of_mark (h : Consistent g stack s) {i : Nat} {m : Mark} (hi : s.marks[i]? = some m) :
    i < g.nodes.size := by
  rw [← h.size]
  exact (Array.getElem?_eq_some_iff.mp hi).1

/-- A frame without edges left is closed, and its node ordered before all others. -/
theorem close (h : Consistent g (⟨v, []⟩ :: stack) s) :
    Consistent g stack ⟨s.marks.setIfInBounds v .done, v :: s.order⟩ := by
  have hv : s.marks[v]? = some .opened := h.top_opened
  have hlt : v < s.marks.size := (Array.getElem?_eq_some_iff.mp hv).1
  obtain ⟨hnot, -, hleft, -, htail⟩ := h.frames
  have hnew : v ∉ s.order := by
    rw [← h.done v, hv]
    simp
  constructor
  case size => rw [Array.size_setIfInBounds, h.size]
  case done =>
    intro i
    rw [marks_set hlt, List.mem_cons]
    by_cases hi : v = i
    · simp [hi]
    · rw [if_neg hi, h.done i]
      exact ⟨.inr, fun hmem => hmem.resolve_left (Ne.symm hi)⟩
  case opened =>
    intro i
    rw [marks_set hlt]
    by_cases hi : v = i
    · subst hi
      simpa using hnot
    · rw [if_neg hi, h.opened i, List.map_cons, List.mem_cons]
      exact ⟨fun hmem => hmem.resolve_left (Ne.symm hi), .inr⟩
  case nodup => exact List.nodup_cons.mpr ⟨hnew, h.nodup⟩
  case ordered =>
    refine ⟨fun j hj => ?_, h.ordered⟩
    rcases hleft j hj with hmem | hnext | ⟨_, hk, -⟩
    · exact hmem
    · cases hnext
    · cases hk
  case frames => exact htail.close

/-- A node that has not been met opens a frame above those that wait for it. -/
theorem opening (wf : g.WellFormed) (h : Consistent g stack s) {i : Nat} {node : Node}
    (hnode : g.node? i = some node) (hmark : s.marks[i]? = some .new) {below : List Frame}
    (hbelow : below.map (·.node) = stack.map (·.node)) (hframes : g.Frames s.order (some i) below) :
    Consistent g (⟨i, node.outEdges⟩ :: below)
      { s with marks := s.marks.setIfInBounds i .opened } := by
  have hlt : i < s.marks.size := (Array.getElem?_eq_some_iff.mp hmark).1
  have hfresh : i ∉ below.map (·.node) := by
    rw [hbelow, ← h.opened i, hmark]
    simp
  have houts : ∀ k, k ∈ node.outEdges ↔ ∃ e, g.edges[k]? = some e ∧ e.src = i := by
    intro k
    simp only [wf.outEdges i node hnode, Graph.mem_numbersWhere, decide_eq_true_iff]
  constructor
  case size => rw [Array.size_setIfInBounds, h.size]
  case done =>
    intro j
    rw [marks_set hlt]
    by_cases hj : i = j
    · subst hj
      rw [if_pos rfl, ← h.done i, hmark]
      simp
    · rw [if_neg hj]
      exact h.done j
  case opened =>
    intro j
    rw [marks_set hlt, List.map_cons, List.mem_cons]
    by_cases hj : i = j
    · simp [hj]
    · rw [if_neg hj, h.opened j, hbelow]
      exact ⟨.inr, fun hmem => hmem.resolve_left (Ne.symm hj)⟩
  case nodup => exact h.nodup
  case ordered => exact h.ordered
  case frames =>
    refine ⟨hfresh, fun k hk => (houts k).mp hk, fun j hj => ?_, by simp, hframes⟩
    obtain ⟨e, he, hsrc, hdst⟩ := hj
    obtain ⟨k, hk⟩ := Array.mem_iff_getElem?.mp he
    exact .inr (.inr ⟨k, (houts k).mpr ⟨e, hk, hsrc⟩, e, hk, hdst⟩)

/-- An edge to a node that has not been met opens a frame for that node. -/
theorem enter (wf : g.WellFormed) (h : Consistent g (⟨v, k :: rest⟩ :: stack) s) {e : Edge}
    {next : Node} (he : g.edges[k]? = some e) (hnode : g.node? e.dst = some next)
    (hmark : s.marks[e.dst]? = some .new) :
    Consistent g (⟨e.dst, next.outEdges⟩ :: ⟨v, rest⟩ :: stack)
      { s with marks := s.marks.setIfInBounds e.dst .opened } := by
  obtain ⟨hnot, hrest, hleft, -, htail⟩ := h.frames
  refine h.opening wf hnode hmark rfl ⟨hnot, ?_, ?_, ?_, htail⟩
  · exact fun k' hk' => hrest k' (List.mem_cons_of_mem k hk')
  · intro j hj
    rcases hleft j hj with hmem | hnext | ⟨k', hk', e', he', hdst⟩
    · exact .inl hmem
    · cases hnext
    · rcases List.mem_cons.mp hk' with rfl | hk'
      · rw [he] at he'
        cases he'
        exact .inr (.inl (by rw [hdst]))
      · exact .inr (.inr ⟨k', hk', e', he', hdst⟩)
  · rintro j ⟨⟩
    obtain ⟨e', he', hsrc⟩ := hrest k List.mem_cons_self
    rw [he] at he'
    cases he'
    exact ⟨e, Array.mem_of_getElem? he, hsrc, rfl⟩

/-- An edge to a node that is ordered already is passed. -/
theorem skip (h : Consistent g (⟨v, k :: rest⟩ :: stack) s) {e : Edge} (he : g.edges[k]? = some e)
    (hmark : s.marks[e.dst]? = some .done) : Consistent g (⟨v, rest⟩ :: stack) s := by
  obtain ⟨hnot, hrest, hleft, -, htail⟩ := h.frames
  refine ⟨h.size, h.done, h.opened, h.nodup, h.ordered, hnot, ?_, ?_, by simp, htail⟩
  · exact fun k' hk' => hrest k' (List.mem_cons_of_mem k hk')
  · intro j hj
    rcases hleft j hj with hmem | hnext | ⟨k', hk', e', he', hdst⟩
    · exact .inl hmem
    · cases hnext
    · rcases List.mem_cons.mp hk' with rfl | hk'
      · rw [he] at he'
        cases he'
        rw [← hdst]
        exact .inl ((h.done e.dst).mp hmark)
      · exact .inr (.inr ⟨k', hk', e', he', hdst⟩)

/-- An edge back into the stack closes a cycle. -/
theorem cycle (h : Consistent g (⟨v, k :: rest⟩ :: stack) s) {e : Edge} (he : g.edges[k]? = some e)
    (hmark : s.marks[e.dst]? = some .opened) : Relation.TransGen g.Leads e.dst e.dst := by
  obtain ⟨e', he', hsrc⟩ := h.frames.2.1 k List.mem_cons_self
  rw [he] at he'
  cases he'
  have hreach := h.frames.reach ((h.opened e.dst).mp hmark)
  exact Relation.TransGen.tail' hreach ⟨e, Array.mem_of_getElem? he, hsrc, rfl⟩

end Consistent

/-! ### The steps still to be made -/

/-- The steps that the frames of a stack still take: one for each edge, and one to close it. -/
def weight (stack : List Frame) : Nat := (stack.map fun frame => frame.rest.length + 1).sum

namespace Graph

/-- The number of edges out of a node. -/
def degree (g : Graph) (i : Nat) : Nat := (g.numbersWhere (·.src = i)).length

/-- The steps that the nodes not met yet will take. -/
def fresh (g : Graph) (marks : Array Mark) : Nat :=
  ∑ i ∈ Finset.range g.nodes.size, if marks[i]? = some .new then g.degree i + 1 else 0

theorem length_filter_range {α : Type} (p : α → Bool) (l : List α) :
    ((List.range l.length).filter fun k => l[k]?.any p).length = l.countP p := by
  induction l with
  | nil => rfl
  | cons a l ih =>
    rw [List.length_cons, List.range_succ_eq_map, List.filter_cons, List.filter_map]
    have htail : (fun k => (a :: l)[k]?.any p) ∘ Nat.succ = fun k => l[k]?.any p := by
      funext k
      simp
    rw [htail]
    by_cases ha : p a <;> simp [ha, ih]

theorem degree_eq_countP (g : Graph) (i : Nat) :
    g.degree i = g.edges.toList.countP (·.src = i) := by
  rw [← length_filter_range, degree, numbersWhere]
  simp

/-- Each edge leaves one node, so the degrees add up to at most the number of edges. -/
theorem sum_degree_le (g : Graph) (n : Nat) : ∑ i ∈ Finset.range n, g.degree i ≤ g.edges.size := by
  simp only [degree_eq_countP, ← Array.length_toList]
  induction g.edges.toList with
  | nil => simp
  | cons e l ih =>
    simp only [List.countP_cons, Finset.sum_add_distrib, List.length_cons, decide_eq_true_iff,
      Finset.sum_ite_eq, Finset.mem_range]
    split <;> omega

theorem fresh_le (g : Graph) (marks : Array Mark) :
    g.fresh marks ≤ g.nodes.size + g.edges.size := by
  calc g.fresh marks ≤ ∑ i ∈ Finset.range g.nodes.size, (g.degree i + 1) := by
        refine Finset.sum_le_sum fun i _ => ?_
        split <;> omega
    _ = ∑ i ∈ Finset.range g.nodes.size, g.degree i + g.nodes.size := by
        rw [Finset.sum_add_distrib]
        simp
    _ ≤ g.nodes.size + g.edges.size := by
        have := g.sum_degree_le g.nodes.size
        omega

/-- Meeting a node takes its share out of the steps to come. -/
theorem fresh_open {g : Graph} {marks : Array Mark} {i : Nat} {m : Mark}
    (hsize : marks.size = g.nodes.size)
    (hnew : marks[i]? = some .new) (hm : m ≠ .new) :
    g.fresh (marks.setIfInBounds i m) + (g.degree i + 1) = g.fresh marks := by
  have hlt : i < marks.size := (Array.getElem?_eq_some_iff.mp hnew).1
  have hi : i ∈ Finset.range g.nodes.size := Finset.mem_range.mpr (by omega)
  rw [fresh, fresh, ← Finset.add_sum_erase _ _ hi, ← Finset.add_sum_erase _ _ hi, marks_set hlt,
    if_pos rfl, if_neg (by simpa using hm), if_pos hnew, Nat.zero_add, Nat.add_comm]
  congr 1
  refine Finset.sum_congr rfl fun j hj => ?_
  rw [marks_set hlt, if_neg (Ne.symm (Finset.ne_of_mem_erase hj))]

/-- Closing a node leaves the steps to come as they are. -/
theorem fresh_close {g : Graph} {marks : Array Mark} {i : Nat} {m : Mark}
    (hopen : marks[i]? = some .opened) (hm : m ≠ .new) :
    g.fresh (marks.setIfInBounds i m) = g.fresh marks := by
  have hlt : i < marks.size := (Array.getElem?_eq_some_iff.mp hopen).1
  refine Finset.sum_congr rfl fun j _ => ?_
  rw [marks_set hlt]
  by_cases hj : i = j
  · subst hj
    rw [if_pos rfl, hopen, if_neg (by simpa using hm), if_neg (by simp)]
  · rw [if_neg hj]

/-! ### A whole search -/

/-- A search that ends: everything it has met is ordered, and what it had met before still is met.
-/
structure Finishes (g : Graph) (s s' : Search) : Prop where
  consistent : Consistent g [] s'
  met : ∀ i : Nat, s.marks[i]? ≠ some .new → s'.marks[i]? ≠ some .new

/-- The search names a node on a cycle. -/
def NamesCycle (g : Graph) (error : Error) : Prop :=
  ∃ i v, g.node? i = some v ∧ Relation.TransGen g.Leads i i ∧ error = .invalid (.cycle v.name)

/-- A search from any consistent state ends, or names a node on a cycle. -/
theorem explore_cases {g : Graph} (wf : g.WellFormed) (bound : Nat) :
    ∀ {stack : List Frame} {s : Search}, Consistent g stack s →
      weight stack + g.fresh s.marks ≤ bound →
      (∃ s', g.explore bound stack s = .ok s' ∧ g.Finishes s s') ∨
        ∃ error, g.explore bound stack s = .error error ∧ g.NamesCycle error := by
  -- each step takes one off the steps still to be made, so the bound is never met early
  induction bound with
  | zero =>
    intro stack s h hbound
    cases stack with
    | nil => exact .inl ⟨s, rfl, h, fun _ hi => hi⟩
    | cons frame stack => simp [weight] at hbound
  | succ bound ih =>
    intro stack s h hbound
    match stack with
    | [] => exact .inl ⟨s, rfl, h, fun _ hi => hi⟩
    | ⟨v, []⟩ :: stack =>
      have hopen := h.top_opened
      have hlt : v < s.marks.size := (Array.getElem?_eq_some_iff.mp hopen).1
      have hfresh := fresh_close (g := g) hopen (m := .done) (by simp)
      rcases ih h.close (by simp [weight] at hbound ⊢; omega) with ⟨s', hs', hfin⟩ | herr
      · exact .inl ⟨s', hs', hfin.consistent,
          fun i hi => hfin.met i (marks_set_ne_new hlt (by simp) (.inr hi))⟩
      · exact .inr herr
    | ⟨v, k :: rest⟩ :: stack =>
      obtain ⟨e, he, -⟩ := h.frames.2.1 k List.mem_cons_self
      obtain ⟨next, hnext⟩ := exists_node? (wf.ends e (Array.mem_of_getElem? he)).2
      have hlt : e.dst < s.marks.size := by
        rw [h.size]
        exact node?_lt hnext
      rw [explore, he]
      simp only [show g.nodes[e.dst]? = some next from hnext]
      cases hmark : s.marks[e.dst]? with
      | none => exact absurd (Array.getElem?_eq_none_iff.mp hmark) (by omega)
      | some mark =>
        cases mark with
        | new =>
          have hfresh := fresh_open h.size hmark (m := .opened) (by simp)
          have hout : next.outEdges.length = g.degree e.dst := by
            rw [wf.outEdges e.dst next hnext, degree]
          rcases ih (h.enter wf he hnext hmark) (by simp [weight] at hbound ⊢; omega) with
            ⟨s', hs', hfin⟩ | herr
          · exact .inl ⟨s', hs', hfin.consistent,
              fun i hi => hfin.met i (marks_set_ne_new hlt (by simp) (.inr hi))⟩
          · exact .inr herr
        -- the edge leads back to a node whose frame is still on the stack
        | opened => exact .inr ⟨_, rfl, e.dst, next, hnext, h.cycle he hmark, rfl⟩
        | done => exact ih (h.skip he hmark) (by simp [weight] at hbound ⊢; omega)

/-- A search from one root ends with the root met, or names a node on a cycle. -/
theorem exploreFrom_cases {g : Graph} (wf : g.WellFormed) {s : Search} {root : Nat}
    (h : Consistent g [] s) (hroot : root < g.nodes.size) :
    (∃ s', g.exploreFrom s root = .ok s' ∧ g.Finishes s s' ∧ s'.marks[root]? ≠ some .new) ∨
      ∃ error, g.exploreFrom s root = .error error ∧ g.NamesCycle error := by
  obtain ⟨v, hv⟩ := exists_node? hroot
  have hlt : root < s.marks.size := by rw [h.size]; exact hroot
  rw [exploreFrom, show g.nodes[root]? = some v from hv]
  cases hmark : s.marks[root]? with
  | none => exact absurd (Array.getElem?_eq_none_iff.mp hmark) (by omega)
  | some mark =>
    cases mark with
    -- between two roots the stack is empty
    | opened =>
      have hmem := (h.opened root).mp hmark
      cases hmem
    | done => exact .inl ⟨s, rfl, ⟨h, fun _ hi => hi⟩, by simp [hmark]⟩
    | new =>
      have hfresh := fresh_open h.size hmark (m := .opened) (by simp)
      have hout : v.outEdges.length = g.degree root := by rw [wf.outEdges root v hv, degree]
      have hle := g.fresh_le s.marks
      have hstart := h.opening wf hv hmark rfl trivial
      rcases explore_cases wf (g.nodes.size + g.edges.size) hstart
        (by simp [weight]; omega) with ⟨s', hs', hfin⟩ | herr
      · have hopen : ∀ i : Nat, i = root ∨ s.marks[i]? ≠ some .new → s'.marks[i]? ≠ some .new := by
          intro i hi
          exact hfin.met i (marks_set_ne_new hlt (by simp) hi)
        exact .inl ⟨s', hs', ⟨hfin.consistent, fun i hi => hopen i (.inr hi)⟩,
          hopen root (.inl rfl)⟩
      · exact .inr herr

theorem consistent_start (g : Graph) :
    Consistent g [] ⟨Array.replicate g.nodes.size .new, []⟩ where
  size := by simp
  done := by intro i; simp [Array.getElem?_replicate]
  opened := by intro i; simp [Array.getElem?_replicate]
  nodup := List.nodup_nil
  ordered := trivial
  frames := trivial

/-- What the search knows after it has tried some roots. -/
structure Tried (g : Graph) (roots : List Nat) (s : Search) : Prop where
  consistent : Consistent g [] s
  met : ∀ i ∈ roots, s.marks[i]? ≠ some .new

theorem tried_of_foldlM {g : Graph} (wf : g.WellFormed) {roots : List Nat} {s : Search}
    (hroots : ∀ i ∈ roots, i < g.nodes.size)
    (h : roots.foldlM g.exploreFrom ⟨Array.replicate g.nodes.size .new, []⟩ = .ok s) :
    g.Tried roots s := by
  refine foldlM_ok_induct g.Tried ⟨consistent_start g, by simp⟩ ?_ h
  intro done root rest s s' hl hs hstep
  have hroot : root < g.nodes.size := hroots root (by rw [hl]; simp)
  rcases exploreFrom_cases wf hs.consistent hroot with ⟨t, ht, hfin, hmet⟩ | ⟨error, herror, -⟩
  · rw [hstep] at ht
    cases ht
    refine ⟨hfin.consistent, fun i hi => ?_⟩
    rcases List.mem_append.mp hi with hi | hi
    · exact hfin.met i (hs.met i hi)
    · rw [List.mem_singleton.mp hi]
      exact hmet
  · rw [hstep] at herror
    cases herror

/-- A search that has tried all nodes has ordered all of them. -/
theorem Tried.perm {g : Graph} {s : Search} (h : g.Tried (List.range g.nodes.size) s) :
    s.order.Perm (List.range g.nodes.size) := by
  refine (List.perm_ext_iff_of_nodup h.consistent.nodup List.nodup_range).mpr fun i => ?_
  rw [List.mem_range, ← h.consistent.done i]
  constructor
  · exact h.consistent.lt_of_mark
  · intro hi
    have hmet := h.met i (List.mem_range.mpr hi)
    have hopened : s.marks[i]? ≠ some .opened := by
      intro hmark
      cases (h.consistent.opened i).mp hmark
    have hlt : i < s.marks.size := by rw [h.consistent.size]; exact hi
    rw [Array.getElem?_eq_getElem hlt] at hmet hopened ⊢
    cases hm : s.marks[i] <;> simp_all

/-- **The order of a graph.** Either all nodes are ordered, each once and before the nodes it leads
to, or the search names a node on a cycle. -/
theorem order_cases {g : Graph} (wf : g.WellFormed) :
    (∃ order, g.order = .ok order ∧ order.Perm (List.range g.nodes.size) ∧ g.Ordered order) ∨
      ∃ error, g.order = .error error ∧ g.NamesCycle error := by
  rw [order]
  cases hfold : (List.range g.nodes.size).foldlM g.exploreFrom
      ⟨Array.replicate g.nodes.size .new, []⟩ with
  | error error =>
    refine .inr ⟨error, rfl, ?_⟩
    obtain ⟨done, root, rest, s, hl, hdone, hroot⟩ := foldlM_error_split hfold
    have hrange : ∀ i ∈ done ++ root :: rest, i < g.nodes.size := by
      intro i hi
      rw [← hl] at hi
      exact List.mem_range.mp hi
    have htried := tried_of_foldlM wf (fun i hi => hrange i (List.mem_append_left _ hi)) hdone
    rcases exploreFrom_cases wf htried.consistent (hrange root (by simp)) with
      ⟨s', hs', -⟩ | ⟨error', herror', hcycle⟩
    · rw [hroot] at hs'
      cases hs'
    · rw [hroot] at herror'
      cases herror'
      exact hcycle
  | ok s =>
    have htried := tried_of_foldlM wf (fun i hi => List.mem_range.mp hi) hfold
    exact .inl ⟨s.order, rfl, htried.perm, htried.consistent.ordered⟩

/-- A graph without a cycle has an order. -/
theorem Acyclic.order {g : Graph} (wf : g.WellFormed) (h : g.Acyclic) :
    ∃ order, g.order = .ok order := by
  rcases order_cases wf with ⟨order, ho, -⟩ | ⟨_, -, i, _, -, hcycle, -⟩
  · exact ⟨order, ho⟩
  · exact absurd hcycle (h i)

/-- An order that is found lists every node once and before the nodes it leads to. -/
theorem order_spec {g : Graph} (wf : g.WellFormed) {order : List Nat} (h : g.order = .ok order) :
    order.Perm (List.range g.nodes.size) ∧ g.Ordered order := by
  rcases order_cases wf with ⟨order', ho, hperm, hord⟩ | ⟨_, herror, -⟩
  · rw [h] at ho
    cases ho
    exact ⟨hperm, hord⟩
  · rw [h] at herror
    cases herror

/-- In an ordered list without repetitions no node leads back. -/
theorem Ordered.pairwise {g : Graph} {l : List Nat} (h : g.Ordered l) (hnodup : l.Nodup) :
    l.Pairwise fun i j => ¬ g.Leads j i := by
  induction l with
  | nil => exact List.Pairwise.nil
  | cons i l ih =>
    obtain ⟨hnot, hrest⟩ := List.nodup_cons.mp hnodup
    refine List.pairwise_cons.mpr ⟨fun j hj hleads => ?_, ih h.2 hrest⟩
    obtain ⟨front, back, rfl⟩ := List.append_of_mem hj
    have hback : i ∈ back := Ordered.of_append h.2 hleads
    exact hnot (by simp [hback])

theorem Ordered.not_leads_self {g : Graph} {l : List Nat} (h : g.Ordered l) (hnodup : l.Nodup)
    {i : Nat} (hi : i ∈ l) : ¬ g.Leads i i := by
  intro hleads
  obtain ⟨front, back, rfl⟩ := List.append_of_mem hi
  have hback : i ∈ back := h.of_append hleads
  have := (List.nodup_append.mp hnodup).2.1
  exact (List.nodup_cons.mp this).1 hback

/-- In an ordered list a path leads from a node into the part behind it. -/
theorem Ordered.of_transGen {g : Graph} {front back : List Nat} {i j : Nat}
    (h : g.Ordered (front ++ i :: back)) (hij : Relation.TransGen g.Leads i j) : j ∈ back := by
  induction hij with
  | single hleads => exact h.of_append hleads
  | @tail k l _ hleads ih =>
    obtain ⟨first, rest, rfl⟩ := List.append_of_mem ih
    have hordered : g.Ordered ((front ++ i :: first) ++ k :: rest) := by simpa using h
    have hrest := hordered.of_append hleads
    simp [hrest]

/-- A graph with an order has no cycle. -/
theorem acyclic_of_order {g : Graph} (wf : g.WellFormed) {order : List Nat}
    (h : g.order = .ok order) : g.Acyclic := by
  obtain ⟨hperm, hordered⟩ := order_spec wf h
  intro i hcycle
  have hi : i ∈ order := by
    obtain ⟨j, hleads, -⟩ := Relation.TransGen.head'_iff.mp hcycle
    exact hperm.mem_iff.mpr (List.mem_range.mpr (hleads.src_lt wf))
  obtain ⟨front, back, rfl⟩ := List.append_of_mem hi
  have hback : i ∈ back := hordered.of_transGen hcycle
  have hnodup : (front ++ i :: back).Nodup := hperm.nodup_iff.mpr List.nodup_range
  exact (List.nodup_cons.mp (List.nodup_append.mp hnodup).2.1).1 hback

end Graph

end GraphLowering.Source
