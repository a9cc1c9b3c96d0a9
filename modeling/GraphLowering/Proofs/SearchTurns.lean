import Mathlib
import GraphLowering.Proofs.SearchOrder

/-!
# The turns of the search

`Graph.order` gives its loop a number of steps. Here the loop is said without one, turn by turn, with
the roots it has still to try as part of its state. No turn is made twice, so a search of a graph
with any edges, cycles included, comes to an end, and the order found is the one its last turn leaves.

* `Walk`, `Graph.Turn`, `Graph.Turns` — the state of the loop, one turn, and a number of turns.
* `Graph.Answer` — where the loop stops, and with what.
* `Sound`, `remaining` — what every turn keeps, and the number that every turn lowers by one.
* `Graph.Ran`, `Graph.order_turns` — the loop of `Graph.order` makes these turns and gives this
  answer.
* `Graph.order_lists_sources_first`, `Graph.order_fails_iff_cycle` — what the order says of the
  edges, and when there is none.
-/

namespace GraphLowering.Source

/-- The state of the search between two turns: the roots still to be tried, the frames on the stack,
the newest first, and the marks and the order so far. -/
structure Walk where
  roots : List Nat
  stack : List Frame
  search : Search
  deriving DecidableEq

namespace Graph

/-- One turn of the search. On an empty stack it tries the next root; otherwise it closes the frame
on top or follows one edge of it. -/
inductive Turn (g : Graph) : Walk → Walk → Prop
  | root {i : Nat} {roots : List Nat} {s : Search} {v : Node} (hnode : g.nodes[i]? = some v)
      (hmark : s.marks[i]? = some .new) :
      g.Turn ⟨i :: roots, [], s⟩
        ⟨roots, [⟨i, v.outEdges⟩], { s with marks := s.marks.setIfInBounds i .opened }⟩
  | pass {i : Nat} {roots : List Nat} {s : Search} {v : Node} {mark : Mark}
      (hnode : g.nodes[i]? = some v) (hmark : s.marks[i]? = some mark) (hmet : mark ≠ .new) :
      g.Turn ⟨i :: roots, [], s⟩ ⟨roots, [], s⟩
  | close {v : Nat} {roots : List Nat} {stack : List Frame} {s : Search} :
      g.Turn ⟨roots, ⟨v, []⟩ :: stack, s⟩
        ⟨roots, stack, ⟨s.marks.setIfInBounds v .done, v :: s.order⟩⟩
  | enter {v k : Nat} {roots rest : List Nat} {stack : List Frame} {s : Search} {e : Edge}
      {next : Node} (hedge : g.edges[k]? = some e) (hnode : g.nodes[e.dst]? = some next)
      (hmark : s.marks[e.dst]? = some .new) :
      g.Turn ⟨roots, ⟨v, k :: rest⟩ :: stack, s⟩
        ⟨roots, ⟨e.dst, next.outEdges⟩ :: ⟨v, rest⟩ :: stack,
          { s with marks := s.marks.setIfInBounds e.dst .opened }⟩
  | skip {v k : Nat} {roots rest : List Nat} {stack : List Frame} {s : Search} {e : Edge}
      {next : Node} (hedge : g.edges[k]? = some e) (hnode : g.nodes[e.dst]? = some next)
      (hmark : s.marks[e.dst]? = some .done) :
      g.Turn ⟨roots, ⟨v, k :: rest⟩ :: stack, s⟩ ⟨roots, ⟨v, rest⟩ :: stack, s⟩

/-- Where the search stops: no root and no frame is left, or an edge leads back into the stack. -/
inductive Answer (g : Graph) : Walk → Except Error (List Nat) → Prop
  | order {s : Search} : g.Answer ⟨[], [], s⟩ (.ok s.order)
  | cycle {v k : Nat} {roots rest : List Nat} {stack : List Frame} {s : Search} {e : Edge}
      {next : Node} (hedge : g.edges[k]? = some e) (hnode : g.nodes[e.dst]? = some next)
      (hmark : s.marks[e.dst]? = some .opened) :
      g.Answer ⟨roots, ⟨v, k :: rest⟩ :: stack, s⟩ (.error (.invalid (.cycle next.name)))

/-- A number of turns, one after the other. -/
inductive Turns (g : Graph) : Nat → Walk → Walk → Prop
  | zero (w : Walk) : g.Turns 0 w w
  | succ {n : Nat} {w w' w'' : Walk} (first : g.Turn w w') (rest : g.Turns n w' w'') :
      g.Turns (n + 1) w w''

/-- The state before the first turn. -/
def start (g : Graph) : Walk :=
  ⟨List.range g.nodes.size, [], ⟨Array.replicate g.nodes.size .new, []⟩⟩

variable {g : Graph}

theorem Turns.trans {m n : Nat} {w w' w'' : Walk} (h : g.Turns m w w') (h' : g.Turns n w' w'') :
    g.Turns (m + n) w w'' := by
  induction h with
  | zero => rwa [Nat.zero_add]
  | succ first _ ih => rw [Nat.succ_add]; exact .succ first (ih h')

/-! ### One turn at a time -/

/-- No walk goes on in two ways. -/
theorem Turn.unique {w u u' : Walk} (h : g.Turn w u) (h' : g.Turn w u') : u = u' := by
  cases h <;> cases h' <;> simp_all

theorem Answer.not_turn {w u : Walk} {answer : Except Error (List Nat)} (h : g.Answer w answer) :
    ¬ g.Turn w u := by
  intro h'
  cases h <;> cases h' <;> simp_all

/-- The turns from a walk make one line: whoever stops early stands on the way of the others. -/
theorem Turns.split {m n : Nat} {w u u' : Walk} (h : g.Turns m w u) (h' : g.Turns (m + n) w u') :
    g.Turns n u u' := by
  induction h with
  | zero => rwa [Nat.zero_add] at h'
  | succ first _ ih =>
    rw [Nat.succ_add] at h'
    cases h' with
    | succ first' rest' =>
      obtain rfl := first.unique first'
      exact ih rest'

/-- What holds between two turns: the marks, the stack and the order agree, and the roots are
nodes. -/
structure Sound (g : Graph) (w : Walk) : Prop where
  consistent : Consistent g w.stack w.search
  roots : ∀ i ∈ w.roots, i < g.nodes.size

theorem sound_start (g : Graph) : g.Sound g.start where
  consistent := consistent_start g
  roots _ hi := List.mem_range.mp hi

theorem Sound.turn (wf : g.WellFormed) {w w' : Walk} (hw : g.Sound w) (h : g.Turn w w') :
    g.Sound w' := by
  obtain ⟨hcon, hroots⟩ := hw
  cases h with
  | root hnode hmark =>
    exact ⟨hcon.opening wf hnode hmark rfl trivial, fun i hi => hroots i (List.mem_cons_of_mem _ hi)⟩
  | pass => exact ⟨hcon, fun i hi => hroots i (List.mem_cons_of_mem _ hi)⟩
  | close => exact ⟨hcon.close, hroots⟩
  | enter hedge hnode hmark => exact ⟨hcon.enter wf hedge hnode hmark, hroots⟩
  | skip hedge _ hmark => exact ⟨hcon.skip hedge hmark, hroots⟩

theorem Sound.turns (wf : g.WellFormed) {n : Nat} {w w' : Walk} (hw : g.Sound w)
    (h : g.Turns n w w') : g.Sound w' := by
  induction h with
  | zero => exact hw
  | succ first _ ih => exact ih (hw.turn wf first)

theorem weight_nil : weight [] = 0 := rfl

theorem weight_cons (frame : Frame) (stack : List Frame) :
    weight (frame :: stack) = frame.rest.length + 1 + weight stack := by
  rw [weight, weight, List.map_cons, List.sum_cons]

/-- The turns that a search can still make: one for each root, each edge on the stack, each frame to
be closed, and what the nodes not met yet will take. -/
def remaining (g : Graph) (w : Walk) : Nat :=
  w.roots.length + weight w.stack + g.fresh w.search.marks

theorem remaining_start_le (g : Graph) :
    g.remaining g.start ≤ 2 * g.nodes.size + g.edges.size := by
  have hfresh := g.fresh_le g.start.search.marks
  have hroots : g.start.roots.length = g.nodes.size := by simp [start]
  have hstack : weight g.start.stack = 0 := weight_nil
  rw [remaining]
  omega

/-- Every turn lowers what remains by one. -/
theorem Turn.remaining_eq (wf : g.WellFormed) {w w' : Walk} (hw : g.Sound w) (h : g.Turn w w') :
    g.remaining w = g.remaining w' + 1 := by
  have hcon := hw.consistent
  have hdegree : ∀ {i : Nat} {v : Node}, g.nodes[i]? = some v → v.outEdges.length = g.degree i := by
    intro i v hv
    rw [wf.outEdges i v hv, degree]
  cases h with
  | root hnode hmark =>
    have hfresh := fresh_open hcon.size hmark (m := .opened) (by simp)
    have hlength := hdegree hnode
    simp only [remaining, weight_cons, weight_nil, List.length_cons] at hfresh ⊢
    omega
  | pass =>
    simp only [remaining, List.length_cons]
    omega
  | close =>
    have hfresh := fresh_close (g := g) hcon.top_opened (m := .done) (by simp)
    simp only [remaining, weight_cons, List.length_nil] at hfresh ⊢
    omega
  | enter hedge hnode hmark =>
    have hfresh := fresh_open hcon.size hmark (m := .opened) (by simp)
    have hlength := hdegree hnode
    simp only [remaining, weight_cons, List.length_cons] at hfresh ⊢
    omega
  | skip =>
    simp only [remaining, weight_cons, List.length_cons]
    omega

/-- A search that has made some turns has that many fewer left. -/
theorem Turns.remaining_eq (wf : g.WellFormed) {n : Nat} {w w' : Walk} (hw : g.Sound w)
    (h : g.Turns n w w') : g.remaining w = g.remaining w' + n := by
  induction h with
  | zero => rfl
  | succ first _ ih =>
    have hfirst := first.remaining_eq wf hw
    have hrest := ih (hw.turn wf first)
    omega

/-! ### The turns of the loop with a bound -/

/-- What a part of the loop that starts at `w` has done for its result. With a success the stack is
empty and `roots` are left; with a cycle the search has stopped at its answer. A fault says
nothing. -/
inductive Ran (g : Graph) (roots : List Nat) (w : Walk) : Except Error Search → Prop
  | ok {n : Nat} {s : Search} (turns : g.Turns n w ⟨roots, [], s⟩) : g.Ran roots w (.ok s)
  | cycle {n : Nat} {w' : Walk} {cause : Invalid} (turns : g.Turns n w w')
      (answer : g.Answer w' (.error (.invalid cause))) : g.Ran roots w (.error (.invalid cause))
  | fault {fault : Fault} : g.Ran roots w (.error (.internal fault))

theorem Ran.after {n : Nat} {roots : List Nat} {w w' : Walk} {result : Except Error Search}
    (h : g.Ran roots w' result) (first : g.Turns n w w') : g.Ran roots w result := by
  cases h with
  | ok turns => exact .ok (first.trans turns)
  | cycle turns answer => exact .cycle (first.trans turns) answer
  | fault => exact .fault

theorem Ran.turn {roots : List Nat} {w w' : Walk} {result : Except Error Search}
    (h : g.Ran roots w' result) (first : g.Turn w w') : g.Ran roots w result :=
  h.after (.succ first (.zero w'))

theorem ran_explore (bound : Nat) (roots : List Nat) (stack : List Frame) (s : Search) :
    g.Ran roots ⟨roots, stack, s⟩ (g.explore bound stack s) := by
  fun_induction Graph.explore g bound stack s with
  | case1 => exact .ok (.zero _)
  | case2 => exact .fault
  | case3 s bound v stack ih => exact ih.turn .close
  | case4 => exact .fault
  | case5 s bound v k rest stack e he next hmark hnext ih => exact ih.turn (.enter he hnext hmark)
  | case6 s bound v k rest stack e he next hmark hnext =>
    exact .cycle (.zero _) (.cycle he hnext hmark)
  | case7 s bound v k rest stack e he next hmark hnext ih => exact ih.turn (.skip he hnext hmark)
  | case8 => exact .fault

theorem ran_exploreFrom (roots : List Nat) (s : Search) (i : Nat) :
    g.Ran roots ⟨i :: roots, [], s⟩ (g.exploreFrom s i) := by
  rw [exploreFrom]
  split
  case h_1 v hnode hmark => exact (ran_explore _ roots _ _).turn (.root hnode hmark)
  case h_2 v mark hnew hnode hmark =>
    exact .ok (.succ (.pass hnode hmark hnew) (.zero _))
  case h_3 => exact .fault

/-- The roots are tried one by one, up to the first that is refused. -/
theorem ran_foldlM (roots : List Nat) (s : Search) :
    g.Ran [] ⟨roots, [], s⟩ (roots.foldlM g.exploreFrom s) := by
  induction roots generalizing s with
  | nil => exact .ok (.zero _)
  | cons i roots ih =>
    rw [List.foldlM_cons]
    have hroot := g.ran_exploreFrom roots s i
    cases hresult : g.exploreFrom s i with
    | ok s' =>
      rw [hresult] at hroot
      cases hroot with
      | ok turns => exact (ih s').after turns
    | error error =>
      rw [hresult] at hroot
      cases hroot with
      | cycle turns answer => exact .cycle turns answer
      | fault => exact .fault

/-- The search for the order makes turns up to its answer. -/
theorem order_turns (wf : g.WellFormed) : ∃ n w, g.Turns n g.start w ∧ g.Answer w g.order := by
  have hran := g.ran_foldlM g.start.roots g.start.search
  cases hfold : g.start.roots.foldlM g.exploreFrom g.start.search with
  | ok s =>
    have horder : g.order = .ok s.order := except_bind_eq_ok.mpr ⟨s, hfold, rfl⟩
    rw [hfold] at hran
    cases hran with
    | ok turns => exact ⟨_, _, turns, horder ▸ .order⟩
  | error error =>
    have horder : g.order = .error error := except_bind_eq_error.mpr (.inl hfold)
    rw [hfold] at hran
    cases hran with
    | cycle turns answer => exact ⟨_, _, turns, horder ▸ answer⟩
    | fault =>
      -- a well-formed graph has an order or a cycle, so the search does not fault
      obtain ⟨order, hok, -⟩ | ⟨_, herror, i, v, -, -, rfl⟩ := order_cases wf
      · exact absurd (horder.symm.trans hok) (by simp)
      · exact absurd (horder.symm.trans herror) (by simp)

/-- A search that comes to an end: it reaches the answer that the order gives, makes no more turns
than twice the nodes and once the edges, and stops nowhere else. -/
structure Halts (g : Graph) : Prop where
  answer : ∃ n w, g.Turns n g.start w ∧ g.Answer w g.order
  bounded : ∀ n w, g.Turns n g.start w → n ≤ 2 * g.nodes.size + g.edges.size
  stops : ∀ n w, g.Turns n g.start w → (∃ w', g.Turn w w') ∨ g.Answer w g.order

theorem WellFormed.halts (wf : g.WellFormed) : g.Halts := by
  obtain ⟨m, u, hm, hu⟩ := order_turns wf
  refine ⟨⟨m, u, hm, hu⟩, fun n w hn => ?_, fun n w hn => ?_⟩
  · have hleft := hn.remaining_eq wf (sound_start g)
    have hstart := remaining_start_le g
    omega
  · -- all turns lie on the line to the answer, and before its end there is a next one
    obtain hle | hlt := Nat.lt_or_ge m n |>.symm
    · obtain ⟨k, rfl⟩ := Nat.exists_eq_add_of_le hle
      cases hn.split hm with
      | zero => exact .inr hu
      | succ first _ => exact .inl ⟨_, first⟩
    · obtain ⟨k, rfl⟩ := Nat.exists_eq_add_of_lt hlt
      cases hm.split (n := k + 1) hn with
      | succ first _ => exact absurd first hu.not_turn

/-! ### What the order says of the edges -/

/-- In an ordered list the source of an edge has the smaller place. -/
theorem Ordered.idxOf_lt {order : List Nat} (h : g.Ordered order) (hnodup : order.Nodup) {i j : Nat}
    (hi : i ∈ order) (hleads : g.Leads i j) : order.idxOf i < order.idxOf j := by
  obtain ⟨front, back, rfl⟩ := List.append_of_mem hi
  have hj : j ∈ back := h.of_append hleads
  obtain ⟨-, hback, hfront⟩ := List.nodup_append.mp hnodup
  have hne : i ≠ j := by
    rintro rfl
    exact (List.nodup_cons.mp hback).1 hj
  have hinot : i ∉ front := fun hmem => hfront i hmem i List.mem_cons_self rfl
  have hjnot : j ∉ front := fun hmem => hfront j hmem j (List.mem_cons_of_mem i hj) rfl
  rw [List.idxOf_append_of_notMem hinot, List.idxOf_append_of_notMem hjnot, List.idxOf_cons_self,
    List.idxOf_cons_ne back hne]
  omega

theorem message_cycle (name : String) : (Error.invalid (.cycle name)).message =
    "invalid argument: graph has a cycle through \"" ++ name ++ "\"" := by
  have hparts : (Error.invalid (.cycle name)).message =
      "invalid argument: " ++ ("graph has a cycle through " ++ ("\"" ++ name ++ "\"")) := rfl
  rw [hparts, ← String.append_assoc, ← String.append_assoc, ← String.append_assoc]
  rfl

/-- **The order lists every node once, and the source of every edge before its destination.** The
loop that searches for it ends on every graph, with or without a cycle. -/
theorem order_lists_sources_first {g : Graph} (hbuilt : g.Built) :
    (∀ order, g.order = .ok order → order.Perm (List.range g.nodes.size) ∧
      ∀ e ∈ g.edges, order.idxOf e.src < order.idxOf e.dst) ∧
    g.Halts := by
  have wf := hbuilt.wellFormed
  refine ⟨fun order horder => ?_, wf.halts⟩
  obtain ⟨hperm, hordered⟩ := order_spec wf horder
  refine ⟨hperm, fun e he => hordered.idxOf_lt (hperm.nodup_iff.mpr List.nodup_range) ?_ ?_⟩
  · exact hperm.mem_iff.mpr (List.mem_range.mpr (wf.ends e he).1)
  · exact ⟨e, he, rfl, rfl⟩

/-- Parallel edges of both kinds from a later node to an earlier one, and a node without edges. -/
def backwardEdges : List Call := [
  .node { name := "sum", op := "Add" }, .node { name := "alone", op := "NoOp", outputs := 0 },
  .node { name := "parts", op := "Split", outputs := 2 }, .node { name := "last", op := "Neg" },
  .edge 2 0 0 0, .edge 2 1 0 1, .control 2 0, .control 0 3]

theorem backwardEdges_listed :
    (build backwardEdges).order = .ok [2, 1, 0, 3] ∧
    (∀ e ∈ (build backwardEdges).edges, [2, 1, 0, 3].idxOf e.src < [2, 1, 0, 3].idxOf e.dst) ∧
    (build (backwardEdges ++ [.control 3 2])).order = .error (.invalid (.cycle "sum")) ∧
    (build (backwardEdges ++ [.control 3 2])).Halts := by
  have horder : (build backwardEdges).order = .ok [2, 1, 0, 3] := by rfl
  exact ⟨horder, ((order_lists_sources_first ⟨_, rfl⟩).1 _ horder).2, by rfl,
    (order_lists_sources_first ⟨_, rfl⟩).2⟩

/-- **Cycles are found exactly.** There is no order iff a path of edges, data or control, leads from
a node back to it; the failure says so of a node that is found by its name. -/
theorem order_fails_iff_cycle {g : Graph} (hbuilt : g.Built) :
    ((∃ error, g.order = .error error) ↔ ∃ i, Relation.TransGen g.Leads i i) ∧
    ∀ error, g.order = .error error → ∃ i v, g.node? i = some v ∧ g.find? v.name = some i ∧
      Relation.TransGen g.Leads i i ∧
      error.message = "invalid argument: graph has a cycle through \"" ++ v.name ++ "\"" := by
  have wf := hbuilt.wellFormed
  refine ⟨⟨?_, ?_⟩, fun error herror => ?_⟩
  · rintro ⟨error, herror⟩
    obtain ⟨order, horder, -⟩ | ⟨_, -, i, _, -, hcycle, -⟩ := order_cases wf
    · exact absurd (horder.symm.trans herror) (by simp)
    · exact ⟨i, hcycle⟩
  · rintro ⟨i, hcycle⟩
    obtain ⟨order, horder, -⟩ | ⟨error, herror, -⟩ := order_cases wf
    · exact absurd hcycle (acyclic_of_order wf horder i)
    · exact ⟨error, herror⟩
  · obtain ⟨order, horder, -⟩ | ⟨_, herror', i, v, hv, hcycle, rfl⟩ := order_cases wf
    · exact absurd (horder.symm.trans herror) (by simp)
    · have heq : error = .invalid (.cycle v.name) := Except.error.inj (herror.symm.trans herror')
      refine ⟨i, v, hv, (wf.find v.name i).mpr ⟨v, hv, rfl⟩, hcycle, ?_⟩
      rw [heq, message_cycle]

/-- A node that leads into a cycle of a control edge and a data edge. -/
def lateCycle : List Call := [
  .node { name := "entry", op := "Neg" }, .node { name := "head", op := "Add" },
  .node { name := "tail", op := "Neg" }, .edge 0 0 1 0, .control 1 2, .edge 2 0 1 1]

/-- A control edge from a node to itself. -/
def selfControl : List Call := [.node { name := "self", op := "Neg" }, .control 0 0]

theorem lateCycle_refused :
    (build lateCycle).order = .error (.invalid (.cycle "head")) ∧
    (∃ i v, (build lateCycle).node? i = some v ∧ (build lateCycle).find? v.name = some i ∧
      Relation.TransGen (build lateCycle).Leads i i) ∧
    (build selfControl).order = .error (.invalid (.cycle "self")) ∧
    ∃ i, Relation.TransGen (build selfControl).Leads i i := by
  have hlate : (build lateCycle).order = .error (.invalid (.cycle "head")) := by rfl
  have hself : (build selfControl).order = .error (.invalid (.cycle "self")) := by rfl
  obtain ⟨i, v, hv, hfind, hcycle, -⟩ := (order_fails_iff_cycle ⟨_, rfl⟩).2 _ hlate
  exact ⟨hlate, ⟨i, v, hv, hfind, hcycle⟩, hself,
    (order_fails_iff_cycle ⟨_, rfl⟩).1.mp ⟨_, hself⟩⟩

end Graph

end GraphLowering.Source
