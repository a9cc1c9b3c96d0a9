import Mathlib
import GraphLowering.Proofs.Representation
import GraphLowering.Proofs.Independence

/-!
# Names carry no meaning

The nodes of a graph are told apart by their places. Names are looked up in one place only: a run
keeps the outputs of a node under its name, and finds them again under the name of the producer of
an input. So other names that still tell the nodes apart change nothing but the wording of failures.

* `Error.variant` — the kind of a failure, without what it names.
* `Graph.rename`, `Built.rename` — a graph under other names, which is a graph again.
* `order_rename`, `partition_rename`, `staticFlags_rename` — preparing never looks at a name.
* `Run.Renamed` — two runs that keep the same under the two names of each node.
* `lowerOp_rename`, `lower_rename` — the steps of a run, and the run.
* `lowering_ignores_names` — a renamed graph has the same flags, functions and kinds of failure.
-/

namespace GraphLowering

open Source Target

/-! ### Kinds of failure -/

/-- The kinds of failure. -/
inductive Error.Variant where
  | controlFlow
  | unsupportedOp
  | missingAttribute
  | invalid
  | inputNotFound
  | mismatch
  | rule
  | internal
  deriving DecidableEq

/-- The kind of a failure. -/
def Error.variant : Error → Error.Variant
  | .controlFlow .. => .controlFlow
  | .unsupportedOp .. => .unsupportedOp
  | .missingAttribute .. => .missingAttribute
  | .invalid _ => .invalid
  | .inputNotFound .. => .inputNotFound
  | .mismatch _ => .mismatch
  | .rule .. => .rule
  | .internal _ => .internal

/-- Two failures of the same kind. -/
def Error.SameVariant (e e' : Error) : Prop := e'.variant = e.variant

/-! ### Graphs under other names -/

/-- The description of a node under another name. -/
def Source.NodeSpec.rename (ρ : String → String) (spec : NodeSpec) : NodeSpec :=
  { spec with name := ρ spec.name }

/-- A node under another name. -/
def Source.Node.rename (ρ : String → String) (v : Source.Node) : Source.Node :=
  { v with name := ρ v.name }

namespace Source.Graph

/-- A graph with the name of each node replaced. -/
def rename (ρ : String → String) (g : Graph) : Graph where
  nodes := g.nodes.map (Node.rename ρ)
  edges := g.edges
  byName := ⟨g.byName.entries.map fun (name, i) => (ρ name, i)⟩

/-- The names of the nodes. -/
def names (g : Graph) : Set String := {name | ∃ i v, g.node? i = some v ∧ v.name = name}

variable {ρ : String → String} {g : Graph}

theorem name_mem_names {i : Nat} {v : Node} (hv : g.node? i = some v) : v.name ∈ g.names :=
  ⟨i, v, hv, rfl⟩

@[simp] theorem node?_rename (ρ : String → String) (g : Graph) (i : Nat) :
    (g.rename ρ).node? i = (g.node? i).map (Node.rename ρ) := by
  simp [rename, node?]

theorem node?_rename_of_some {i : Nat} {v : Node} (hv : g.node? i = some v) :
    (g.rename ρ).node? i = some (v.rename ρ) := by
  rw [node?_rename, hv]
  rfl

@[simp] theorem edges_rename (ρ : String → String) (g : Graph) : (g.rename ρ).edges = g.edges := rfl

@[simp] theorem nodes_size_rename (ρ : String → String) (g : Graph) :
    (g.rename ρ).nodes.size = g.nodes.size := by
  simp [rename]

theorem rename_empty (ρ : String → String) : ({} : Graph).rename ρ = {} := by
  simp [rename, NameTable.empty]

theorem rename_withNode (ρ : String → String) (g : Graph) (spec : NodeSpec) :
    (g.withNode spec).rename ρ = (g.rename ρ).withNode (spec.rename ρ) := by
  simp [rename, withNode, NameTable.insert, NodeSpec.rename, Node.rename]

theorem map_modify (nodes : Array Node) (i : Nat) {f : Node → Node}
    (hf : ∀ v, (f v).rename ρ = f (v.rename ρ)) :
    (nodes.modify i f).map (Node.rename ρ) = (nodes.map (Node.rename ρ)).modify i f := by
  apply Array.ext_getElem?
  intro j
  rw [Array.getElem?_map, Array.getElem?_modify, Array.getElem?_modify, Array.getElem?_map]
  by_cases hij : i = j
  · simp [hij, Function.comp_def, hf]
  · simp [hij]

theorem rename_withEdge (ρ : String → String) (g : Graph) (e : Edge) :
    (g.withEdge e).rename ρ = (g.rename ρ).withEdge e := by
  simp only [rename, withEdge]
  rw [map_modify, map_modify]
  · intro v
    rfl
  · intro v
    rfl

theorem Fits.rename {e : Edge} (h : g.Fits e) (ρ : String → String) : (g.rename ρ).Fits e := by
  obtain ⟨⟨producer, hp, hout⟩, consumer, hc, hfree⟩ := h
  exact ⟨⟨producer.rename ρ, node?_rename_of_some hp, hout⟩,
    consumer.rename ρ, node?_rename_of_some hc, hfree⟩

/-! ### Renamed graphs are built -/

theorem find?_eq_none (wf : g.WellFormed) {name : String} :
    g.find? name = none ↔ name ∉ g.names := by
  rw [Option.eq_none_iff_forall_ne_some]
  constructor
  · rintro h ⟨i, v, hv, hname⟩
    exact h i ((wf.find name i).mpr ⟨v, hv, hname⟩)
  · intro h i hfind
    obtain ⟨v, hv, hname⟩ := (wf.find name i).mp hfind
    exact h ⟨i, v, hv, hname⟩

theorem names_withNode (g : Graph) (spec : NodeSpec) :
    (g.withNode spec).names = insert spec.name g.names := by
  ext name
  constructor
  · rintro ⟨i, v, hv, hname⟩
    rw [node?_withNode] at hv
    split at hv
    · obtain rfl := Option.some.inj hv
      exact .inl hname.symm
    · exact .inr ⟨i, v, hv, hname⟩
  · rintro (rfl | ⟨i, v, hv, hname⟩)
    · exact ⟨g.nodes.size, _, by rw [node?_withNode, if_pos rfl], rfl⟩
    · refine ⟨i, v, ?_, hname⟩
      rw [node?_withNode, if_neg (Nat.ne_of_lt (node?_lt hv))]
      exact hv

theorem names_withEdge (g : Graph) (e : Edge) : (g.withEdge e).names = g.names := by
  ext name
  constructor
  · rintro ⟨i, v, hv, hname⟩
    rw [node?_withEdge] at hv
    obtain ⟨u, hu, rfl⟩ := Option.map_eq_some_iff.mp hv
    exact ⟨i, u, hu, hname⟩
  · rintro ⟨i, v, hv, hname⟩
    exact ⟨i, _, (node?_withEdge g e i).trans (congrArg _ hv), hname⟩

theorem names_rename (ρ : String → String) (g : Graph) : (g.rename ρ).names = ρ '' g.names := by
  ext name
  constructor
  · rintro ⟨i, v, hv, hname⟩
    rw [node?_rename] at hv
    obtain ⟨u, hu, rfl⟩ := Option.map_eq_some_iff.mp hv
    exact ⟨u.name, name_mem_names hu, hname⟩
  · rintro ⟨_, ⟨i, v, hv, rfl⟩, rfl⟩
    exact ⟨i, v.rename ρ, node?_rename_of_some hv, rfl⟩

/-- A name that no node has is not taken under names that tell it apart from all nodes. -/
theorem find?_rename_eq_none (wf : g.WellFormed) (wf' : (g.rename ρ).WellFormed) {name : String}
    (hfresh : g.find? name = none) (hinj : Set.InjOn ρ (insert name g.names)) :
    (g.rename ρ).find? (ρ name) = none := by
  rw [find?_eq_none wf', names_rename]
  rintro ⟨other, hother, hsame⟩
  have hname : other = name := hinj (.inr hother) (.inl rfl) hsame
  exact (find?_eq_none wf).mp hfresh (hname ▸ hother)

/-- Names that tell the nodes apart make a graph that can be built. -/
theorem Built.rename (h : g.Built) : Set.InjOn ρ g.names → (g.rename ρ).Built := by
  -- the renamed calls build the renamed graph, and succeed together with the given ones
  suffices hgoal : g.WellFormed ∧ (Set.InjOn ρ g.names → (g.rename ρ).Built) from hgoal.2
  apply Built.induct (P := fun g => g.WellFormed ∧ (Set.InjOn ρ g.names → (g.rename ρ).Built))
    _ _ _ h
  · exact ⟨wellFormed_empty, fun _ => ⟨[], (rename_empty ρ).symm⟩⟩
  · rintro g spec hfresh ⟨wf, ih⟩
    refine ⟨wf.withNode hfresh, fun hinj => ?_⟩
    rw [names_withNode] at hinj
    have hbuilt := ih (hinj.mono (Set.subset_insert _ _))
    rw [rename_withNode]
    exact hbuilt.withNode (find?_rename_eq_none wf hbuilt.wellFormed hfresh hinj)
  · rintro g e fits ⟨wf, ih⟩
    refine ⟨wf.withEdge fits, fun hinj => ?_⟩
    rw [names_withEdge] at hinj
    rw [rename_withEdge]
    exact (ih hinj).withEdge (fits.rename ρ)

end Source.Graph

/-! ### Preparing -/

section Preparing

variable (ρ : String → String)

theorem node_rename (g : Source.Graph) (i : Nat) :
    Paired Error.SameVariant (fun v v' => g.node? i = some v ∧ v' = v.rename ρ) (g.node i)
      ((g.rename ρ).node i) := by
  unfold Graph.node
  rw [Graph.node?_rename]
  cases g.node? i with
  | none => exact .error rfl
  | some v => exact .ok ⟨rfl, rfl⟩

theorem attrOfKind_rename {α : Type} (v : Source.Node) (key expected : String)
    (read : Attribute → Option α) :
    Paired Error.SameVariant Eq (v.attrOfKind key expected read)
      ((v.rename ρ).attrOfKind key expected read) := by
  have hattr : (v.rename ρ).attr? key = v.attr? key := rfl
  unfold Node.attrOfKind Node.attrOfKind?
  rw [hattr]
  cases v.attr? key with
  | none => exact .error rfl
  | some attr =>
    dsimp only
    cases read attr with
    | none => exact .error rfl
    | some value => exact .ok rfl

theorem position_rename (v : Source.Node) :
    Paired Error.SameVariant Eq (position v) (position (v.rename ρ)) := by
  apply (attrOfKind_rename ρ v "index" _ _).bind_eq
  intro index
  by_cases hneg : index < 0
  · rw [if_pos hneg, if_pos hneg]
    exact .error rfl
  · rw [if_neg hneg, if_neg hneg]
    exact .ok rfl

theorem explore_rename (g : Source.Graph) (bound : Nat) (stack : List Frame) (s : Search) :
    Paired Error.SameVariant Eq (g.explore bound stack s) ((g.rename ρ).explore bound stack s) := by
  induction bound generalizing stack s with
  | zero =>
    cases stack with
    | nil => exact .ok rfl
    | cons frame stack => exact .error rfl
  | succ bound ih =>
    match stack with
    | [] => exact .ok rfl
    | ⟨v, []⟩ :: stack => exact ih _ _
    | ⟨v, e :: rest⟩ :: stack =>
      have hnodes : ∀ i : Nat, (g.rename ρ).nodes[i]? = g.nodes[i]?.map (Node.rename ρ) :=
        g.node?_rename ρ
      unfold Graph.explore
      rw [Graph.edges_rename]
      cases g.edges[e]? with
      | none => exact .error rfl
      | some edge =>
        dsimp only
        rw [hnodes]
        cases g.nodes[edge.dst]? with
        | none => exact .error rfl
        | some next =>
          cases s.marks[edge.dst]? with
          | none => exact .error rfl
          | some mark =>
            cases mark with
            | new => exact ih _ _
            | opened => exact .error rfl
            | done => exact ih _ _

theorem order_rename (g : Source.Graph) :
    Paired Error.SameVariant Eq g.order (g.rename ρ).order := by
  unfold Graph.order
  rw [Graph.nodes_size_rename]
  refine (Paired.foldlM_eq fun s root => ?_).bind_eq fun s => .ok rfl
  have hnode : (g.rename ρ).nodes[root]? = g.nodes[root]?.map (Node.rename ρ) :=
    g.node?_rename ρ root
  unfold Graph.exploreFrom
  rw [hnode, Graph.nodes_size_rename, Graph.edges_rename]
  cases g.nodes[root]? with
  | none => exact .error rfl
  | some v =>
    cases s.marks[root]? with
    | none => exact .error rfl
    | some mark =>
      cases mark with
      | new => exact explore_rename ρ g _ _ _
      | opened => exact .ok rfl
      | done => exact .ok rfl

theorem partition_rename (g : Source.Graph) (l : List Nat) :
    Paired Error.SameVariant Eq (Partition.of g l) (Partition.of (g.rename ρ) l) := by
  induction l with
  | nil => exact .ok rfl
  | cons i l ih =>
    unfold Partition.of
    apply (node_rename ρ g i).bind
    rintro v _ ⟨-, rfl⟩
    show Paired Error.SameVariant Eq _
      (if v.isSentinel then _ else if v.isControlFlow then _ else _)
    by_cases hs : v.isSentinel = true
    · rw [if_pos hs, if_pos hs]
      exact ih
    · rw [if_neg hs, if_neg hs]
      by_cases hf : v.isControlFlow = true
      · rw [if_pos hf, if_pos hf]
        exact .error rfl
      · rw [if_neg hf, if_neg hf]
        exact ih.bind_eq fun parts => .ok rfl

theorem feedsStaticSlot_rename (g : Source.Graph) (v : Source.Node) :
    feedsStaticSlot (g.rename ρ) (v.rename ρ) = feedsStaticSlot g v := by
  have henters : entersStaticSlot (g.rename ρ) = entersStaticSlot g := by
    funext e
    unfold entersStaticSlot
    rw [Graph.node?_rename]
    cases e.kind with
    | control => rfl
    | data output slot =>
      cases g.node? e.dst with
      | none => rfl
      | some consumer => rfl
  unfold feedsStaticSlot
  rw [henters]
  rfl

theorem staticFlags_rename (g : Source.Graph) (params : List Nat) :
    Paired Error.SameVariant Eq (staticFlags g params) (staticFlags (g.rename ρ) params) := by
  have harguments : Paired Error.SameVariant
      (List.Forall₂ fun (p p' : Source.Node × Nat) => (p.1.rename ρ, p.2) = p')
      (params.mapM (positioned g params.length))
      (params.mapM (positioned (g.rename ρ) params.length)) := by
    apply Paired.mapM (List.forall₂_same.mpr fun _ _ => rfl)
    rintro i _ rfl
    apply (node_rename ρ g i).bind
    rintro v _ ⟨-, rfl⟩
    apply (position_rename ρ v).bind_eq
    intro index
    by_cases hle : params.length ≤ index
    · rw [if_pos hle, if_pos hle]
      exact .error rfl
    · rw [if_neg hle, if_neg hle]
      exact .ok rfl
  unfold staticFlags
  apply harguments.bind
  intro arguments arguments' h
  obtain rfl : arguments' = arguments.map fun p => (p.1.rename ρ, p.2) := by
    rw [← List.forall₂_map_left_iff, List.forall₂_eq_eq_eq] at h
    exact h.symm
  dsimp only
  rw [List.foldl_map, List.foldl_map]
  simp only [feedsStaticSlot_rename]
  exact .ok rfl

/-- A prepared graph under other names. -/
def Compiled.rename (c : Compiled) : Compiled := { c with graph := c.graph.rename ρ }

theorem prepare_rename (g : Source.Graph) :
    Paired Error.SameVariant (fun c c' => c' = c.rename ρ) (prepare g) (prepare (g.rename ρ)) := by
  apply (order_rename ρ g).bind_eq
  intro order
  apply (partition_rename ρ g order).bind_eq
  intro parts
  apply (staticFlags_rename ρ g parts.params).bind_eq
  intro flags
  exact .ok rfl

end Preparing

/-! ### Runs -/

/-- Two runs with one arena that keep the same outputs under the two names of each node. -/
structure Run.Renamed (g : Source.Graph) (ρ : String → String) (run run' : Run) : Prop where
  target : run'.target = run.target
  outputs : ∀ i v, g.node? i = some v → run'.outputs.get? (ρ v.name) = run.outputs.get? v.name

section Runs

variable {g : Source.Graph} {ρ : String → String} {run run' : Run}

/-- Both runs keep the outputs of one more node, each under its own name for it. -/
theorem Run.Renamed.extend (hinj : Set.InjOn ρ g.names) (h : run.Renamed g ρ run') {i : Nat}
    {v : Source.Node} (hv : g.node? i = some v) (target : Target.Graph) (outputs : Outputs) :
    (run.extend target v.name outputs).Renamed g ρ (run'.extend target (ρ v.name) outputs) where
  target := rfl
  outputs := by
    intro j u hu
    have hname : ρ u.name = ρ v.name ↔ u.name = v.name :=
      hinj.eq_iff (Graph.name_mem_names hu) (Graph.name_mem_names hv)
    simp only [Run.get?_extend, hname, h.outputs j u hu]

/-- The same wire stands behind an input slot. -/
theorem resolveInput_rename (h : run.Renamed g ρ run') (v : Source.Node) (slot : Nat) :
    Paired Error.SameVariant Eq (resolveInput g run.outputs v slot)
      (resolveInput (g.rename ρ) run'.outputs (v.rename ρ) slot) := by
  have hedge : (g.rename ρ).inputEdge? (v.rename ρ) slot = g.inputEdge? v slot := rfl
  unfold resolveInput
  rw [hedge]
  cases g.inputEdge? v slot with
  | none => exact .error rfl
  | some edge =>
    obtain ⟨src, dst, kind⟩ := edge
    cases kind with
    | control => exact .error rfl
    | data output input =>
      apply (node_rename ρ g src).bind
      rintro producer _ ⟨hp, rfl⟩
      have hget : run'.outputs.get? (producer.rename ρ).name = run.outputs.get? producer.name :=
        h.outputs src producer hp
      dsimp only
      rw [hget]
      cases run.outputs.get? producer.name with
      | none => exact .error rfl
      | some wires =>
        dsimp only
        cases wires[output]?.join with
        | none => exact .error rfl
        | some w => exact .ok rfl

/-- The same value stands on an input slot. -/
theorem staticInput_rename (ρ : String → String) (g : Source.Graph) (v : Source.Node)
    (statics : List (Option Tensor)) (slot : Nat) :
    Paired Error.SameVariant Eq ((⟨v, g, statics⟩ : Context).staticInput slot)
      ((⟨v.rename ρ, g.rename ρ, statics⟩ : Context).staticInput slot) := by
  have hedge : (g.rename ρ).inputEdge? (v.rename ρ) slot = g.inputEdge? v slot := rfl
  unfold Context.staticInput
  dsimp only
  rw [hedge]
  cases g.inputEdge? v slot with
  | none => exact .error rfl
  | some edge =>
    apply (node_rename ρ g edge.src).bind
    rintro producer _ ⟨-, rfl⟩
    show Paired Error.SameVariant Eq _
      (if producer.isArgument then _ else if producer.op = "Const" then _ else _)
    by_cases harg : producer.isArgument = true
    · rw [if_pos harg, if_pos harg]
      apply (attrOfKind_rename ρ producer "index" _ _).bind_eq
      intro index
      have hvalue : (⟨v.rename ρ, g.rename ρ, statics⟩ : Context).argumentValue? index =
          (⟨v, g, statics⟩ : Context).argumentValue? index := rfl
      rw [hvalue]
      cases (⟨v, g, statics⟩ : Context).argumentValue? index with
      | some value => exact .ok rfl
      | none => exact .error rfl
    · rw [if_neg harg, if_neg harg]
      by_cases hconst : producer.op = "Const"
      · rw [if_pos hconst, if_pos hconst]
        exact attrOfKind_rename ρ producer "value" _ _
      · rw [if_neg hconst, if_neg hconst]
        exact .error rfl

/-- Rules fail in the same kind if reading the values on their slots does. -/
theorem Context.Fails.sameVariant {slots : Nat → Prop} {ctx ctx' : Context} {e e' : Error}
    (h : ctx.Fails slots ctx' e e')
    (hstatic : ∀ slot, Paired Error.SameVariant Eq (ctx.staticInput slot) (ctx'.staticInput slot)) :
    e.SameVariant e' := by
  cases h with
  | refuse _ _ => rfl
  | missing _ => rfl
  | kind _ _ _ => rfl
  | inputCount _ _ => rfl
  | inputCountAtLeast _ _ => rfl
  | plain _ => rfl
  | static slot _ he he' =>
    have hslot := hstatic slot
    rw [he, he'] at hslot
    cases hslot with
    | error h => exact h

theorem context_rename_agree (ρ : String → String) (g : Source.Graph) (v : Source.Node)
    (statics : List (Option Tensor)) (slots : Nat → Prop) :
    (⟨v, g, statics⟩ : Context).Agree slots ⟨v.rename ρ, g.rename ρ, statics⟩ where
  attr _ := rfl
  outputs := rfl
  inputs := rfl
  static slot _ := by
    have h := staticInput_rename ρ g v statics slot
    generalize (⟨v, g, statics⟩ : Context).staticInput slot = r at h
    generalize (⟨v.rename ρ, g.rename ρ, statics⟩ : Context).staticInput slot = r' at h
    cases h with
    | ok h => exact .ok h
    | error _ => exact .error trivial

theorem checkPlace_rename (slots : List (Option Wire)) (index : Nat) (name name' : String) :
    Paired Error.SameVariant Eq (checkPlace slots index name) (checkPlace slots index name') := by
  unfold checkPlace
  cases slots[index]? with
  | none => exact .error rfl
  | some place =>
    cases place with
    | none => exact .ok rfl
    | some w => exact .error rfl

theorem addResult_rename (h : run.Renamed g ρ run') (slots : List (Option Wire)) (i : Nat) :
    Paired Error.SameVariant Eq (addResult g run.outputs slots i)
      (addResult (g.rename ρ) run'.outputs slots i) := by
  apply (node_rename ρ g i).bind
  rintro v _ ⟨-, rfl⟩
  show Paired Error.SameVariant Eq _ (if v.inputs ≠ 1 then _ else _)
  by_cases hinputs : v.inputs ≠ 1
  · rw [if_pos hinputs, if_pos hinputs]
    exact .error rfl
  · rw [if_neg hinputs, if_neg hinputs]
    apply (position_rename ρ v).bind_eq
    intro index
    apply (checkPlace_rename slots index _ _).bind_eq
    intro _
    exact (resolveInput_rename h v 0).bind_eq fun w => .ok rfl

variable (hinj : Set.InjOn ρ g.names)
include hinj

theorem addParameter_rename (args : List Argument) (h : run.Renamed g ρ run')
    (slots : List (Option Wire)) (i : Nat) :
    Paired Error.SameVariant (fun s s' => s.1.Renamed g ρ s'.1 ∧ s'.2 = s.2)
      (addParameter g args (run, slots) i) (addParameter (g.rename ρ) args (run', slots) i) := by
  apply (node_rename ρ g i).bind
  rintro v _ ⟨hv, rfl⟩
  apply (attrOfKind_rename ρ v "T" _ _).bind_eq
  intro type
  apply (position_rename ρ v).bind_eq
  intro index
  apply (checkPlace_rename slots index _ _).bind_eq
  intro _
  cases args[index]? with
  | none => exact .error rfl
  | some arg =>
    -- what is made of the type and the shape does not depend on the graph
    have helement : Paired Error.SameVariant Eq type.element type.element :=
      Paired.refl fun _ _ => rfl
    have hshape : Paired Error.SameVariant Eq (Shape.ofDims arg.shape) (Shape.ofDims arg.shape) :=
      Paired.refl fun _ _ => rfl
    apply helement.bind_eq
    intro element
    apply hshape.bind_eq
    intro shape
    obtain ⟨target, outputs⟩ := run'
    obtain rfl : target = run.target := h.target
    exact .ok ⟨h.extend hinj hv _ _, rfl⟩

theorem lowerOp_rename (wf : g.WellFormed) {done : List Nat} (hcovers : Covers g done run)
    (statics : List (Option Tensor)) (h : run.Renamed g ρ run') (i : Nat) :
    Paired Error.SameVariant (Run.Renamed g ρ) (lowerOp g statics run i)
      (lowerOp (g.rename ρ) statics run' i) := by
  apply (node_rename ρ g i).bind
  rintro v _ ⟨hv, rfl⟩
  have hop : (v.rename ρ).op = v.op := rfl
  dsimp only
  rw [hop]
  cases OpKind.ofName? v.op with
  | none => exact .error rfl
  | some kind =>
    apply (Paired.mapM_eq fun slot => resolveInput_rename h v slot).bind_run
    rintro ws _ hws rfl
    have hroom : Paired Error.SameVariant Eq (needRoom v.outputs slotBytes)
        (needRoom (v.rename ρ).outputs slotBytes) := Paired.refl fun _ _ => rfl
    apply hroom.bind_eq
    intro _
    have htwin := OpKind.rule_twin_same (hcovers.has_of_mapM wf hv hws)
      (except_mapM_eq_ok.mp hws).length_eq.symm (context_rename_agree ρ g v statics _)
      keptByAppend_true trivial
    unfold Run.emitting
    rw [h.target]
    generalize kind.rule ⟨v, g, statics⟩ ws run.target = r at htwin
    generalize kind.rule ⟨v.rename ρ, g.rename ρ, statics⟩ ws run.target = r' at htwin
    cases htwin with
    | ok _ _ harenas hpost =>
      obtain rfl := OutputsAlike.eq hpost
      obtain rfl := harenas.1
      exact .ok (h.extend hinj hv _ _)
    | error _ _ _ hfails => exact .error (hfails.sameVariant (staticInput_rename ρ g v statics))

end Runs

/-- A run of a renamed graph ends in the same function, or in a failure of the same kind. -/
theorem lower_rename {c : Compiled} {ρ : String → String} (hc : c.Prepared)
    (hinj : Set.InjOn ρ c.graph.names) (args : List Argument) :
    Paired Error.SameVariant Eq (c.lower args) ((c.rename ρ).lower args) := by
  have hstart : Run.Renamed c.graph ρ {} {} := ⟨rfl, fun _ _ _ => rfl⟩
  have hparams : Paired Error.SameVariant (fun s s' => s.1.Renamed c.graph ρ s'.1 ∧ s'.2 = s.2)
      (c.parts.params.foldlM (addParameter c.graph args)
        ({}, List.replicate c.parts.params.length none))
      (c.parts.params.foldlM (addParameter (c.graph.rename ρ) args)
        ({}, List.replicate c.parts.params.length none)) := by
    refine Paired.foldlM_run ⟨hstart, rfl⟩ ?_
    rintro - i - ⟨run, _⟩ ⟨run', slots⟩ - - ⟨hrun, rfl⟩
    exact addParameter_rename hinj args hrun slots i
  apply hparams.bind_run
  rintro ⟨start, parameters⟩ ⟨start', _⟩ hdone ⟨hrenamed, rfl⟩
  have hops : Paired Error.SameVariant (Run.Renamed c.graph ρ)
      (c.parts.ops.foldlM (lowerOp c.graph (c.statics args)) start)
      (c.parts.ops.foldlM (lowerOp (c.graph.rename ρ) (c.statics args)) start') := by
    apply Paired.foldlM_run hrenamed
    intro done i rest run run' hsplit hrun h
    have hcovers := (hc.ops_done (hc.params_done hdone).covers hsplit hrun).covers
    exact lowerOp_rename hinj hc.wf hcovers _ h i
  apply hops.bind
  intro run run' h
  have hresults : Paired Error.SameVariant Eq
      (c.parts.returns.foldlM (addResult c.graph run.outputs)
        (List.replicate c.parts.returns.length none))
      (c.parts.returns.foldlM (addResult (c.graph.rename ρ) run'.outputs)
        (List.replicate c.parts.returns.length none)) :=
    Paired.foldlM_eq fun slots i => addResult_rename h slots i
  apply hresults.bind_eq
  intro results
  rw [h.target]
  exact .ok rfl

/-- **Names carry no meaning.** Under names that tell its nodes apart, a graph is prepared exactly
if it is under its own, with the same flags; and a run then ends in the same function, or in a
failure of the same kind. -/
theorem lowering_ignores_names {g : Source.Graph} (hbuilt : g.Built) {ρ : String → String}
    (hinj : Set.InjOn ρ g.names) :
    (g.rename ρ).Built ∧
    ((∃ c, prepare g = .ok c) ↔ ∃ c', prepare (g.rename ρ) = .ok c') ∧
    (∀ error error', prepare g = .error error → prepare (g.rename ρ) = .error error' →
      error'.variant = error.variant) ∧
    ∀ c c', prepare g = .ok c → prepare (g.rename ρ) = .ok c' →
      c'.flags = c.flags ∧ ∀ args,
        (∀ f, c'.lower args = .ok f ↔ c.lower args = .ok f) ∧
        ∀ error, c.lower args = .error error →
          ∃ error', c'.lower args = .error error' ∧ error'.variant = error.variant := by
  have hprepare := prepare_rename ρ g
  refine ⟨hbuilt.rename hinj, hprepare.exists_ok_iff, ?_, ?_⟩
  · intro error error' herror herror'
    obtain ⟨other, hother, hsame⟩ := hprepare.exists_error herror
    obtain rfl := Except.error.inj (herror'.symm.trans hother)
    exact hsame
  · intro c c' hc hc'
    rw [hc, hc'] at hprepare
    cases hprepare with
    | ok h =>
      subst h
      have hprepared := prepared_of_prepare hbuilt.wellFormed hc
      obtain ⟨rfl, -⟩ := prepare_eq_ok hc
      refine ⟨rfl, fun args => ?_⟩
      have hlower := lower_rename hprepared hinj args
      exact ⟨fun f => hlower.eq_ok_iff, fun error herror => hlower.exists_error herror⟩

/-- The difference of two arguments. -/
def difference : Source.Graph := Graph.build [
  .node { name := "x", op := "_Arg",
          attrs := (NameTable.empty.insert "T" (.type .float)).insert "index" (.int 0) },
  .node { name := "y", op := "_Arg",
          attrs := (NameTable.empty.insert "T" (.type .float)).insert "index" (.int 1) },
  .node { name := "d", op := "Sub" },
  .node { name := "out", op := "_Retval", attrs := NameTable.empty.insert "index" (.int 0) },
  .edge 0 0 2 0, .edge 1 0 2 1, .edge 2 0 3 0]

/-- The arguments exchange their names and keep their positions. -/
theorem difference_swapped :
    ∃ c c' f, prepare difference = .ok c ∧
      prepare (difference.rename (Equiv.swap "x" "y")) = .ok c' ∧ c'.flags = [false, false] ∧
      c.lower [⟨.float, [2], none⟩, ⟨.float, [], none⟩] = .ok f ∧
      c'.lower [⟨.float, [2], none⟩, ⟨.float, [], none⟩] = .ok f ∧
      f.parameters = [1, 0] ∧
      ∃ error, c'.lower [⟨.float, [2], none⟩] = .error error ∧ error.variant = .invalid := by
  have hinj : Set.InjOn (Equiv.swap "x" "y") difference.names := (Equiv.injective _).injOn
  have hprepare : prepare difference =
      .ok ⟨difference, ⟨[1, 0], [3], [2]⟩, [false, false]⟩ := by rfl
  obtain ⟨-, hiff, -, hsame⟩ := lowering_ignores_names ⟨_, rfl⟩ hinj
  obtain ⟨c', hprepare'⟩ := hiff.mp ⟨_, hprepare⟩
  obtain ⟨hflags, hlower⟩ := hsame _ c' hprepare hprepare'
  obtain ⟨hfunction, -⟩ := hlower [⟨.float, [2], none⟩, ⟨.float, [], none⟩]
  obtain ⟨-, hfailure⟩ := hlower [⟨.float, [2], none⟩]
  obtain ⟨error, herror, hvariant⟩ := hfailure (.invalid (.argumentNotSupplied "y" 1 1)) (by rfl)
  exact ⟨_, c', _, hprepare, hprepare', hflags, rfl, (hfunction _).mpr rfl, rfl, error, herror,
    hvariant⟩

end GraphLowering
