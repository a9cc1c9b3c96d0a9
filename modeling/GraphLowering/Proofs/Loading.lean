import Mathlib
import GraphLowering.Proofs.References
import GraphLowering.Proofs.Representation

/-!
# The graph of a document

Loading a document reads all references, adds the nodes and adds the edges. Here it is said what a
document must be for this to succeed, and what graph it then gives, without the three passes: a node
for each definition, in the order of the document, and an edge for each input, in the order of the
inputs, whose data edges take the slots one after the other.

* `Document.Loadable` — a document that has a graph.
* `Document.Defines`, `Document.Wired`, `Document.Describes` — the graph of a document.
* `Document.Fault` — what is reported of a document without a graph.
* `nodes_cases`, `addInputs_ends`, `edges_cases` — the passes, each up to its end or to a fault.
* `Describes.loadable`, `Fault.not_loadable` — a graph and a fault exclude each other.
* `loadGraph_faithful` — which documents are loaded, and as what.
-/

namespace GraphLowering

open Source

/-! ### Documents and their graphs -/

namespace Document

variable (doc : Document)

/-- A document whose inputs are all written well and name outputs that its nodes declare, whose
attributes can all be converted, and which defines no name twice. -/
structure Loadable : Prop where
  inputs : ∀ d ∈ doc.nodes, ∀ text ∈ d.inputs, ∃ ref : InputRef, ref.Written text.toList
  attrs : ∀ d ∈ doc.nodes, ∀ entry ∈ d.attrs, ∃ attr, entry.2.attribute = .ok attr
  names : (doc.nodes.map (·.name)).Nodup
  producers : ∀ ref, doc.Refers ref → ∃ p ∈ doc.nodes, p.name = ref.node
  outputs : ∀ p ∈ doc.nodes, ∀ output, doc.Refers (.data p.name output) →
    ∀ n, doc.Declares p n → output < n

/-- A node with the name, the op and the attributes of a definition, and with as many outputs as the
document makes it declare. -/
structure Defines (d : NodeDef) (spec : NodeSpec) : Prop where
  name : spec.name = d.name
  op : spec.op = d.op
  attrs : List.Forall₂ (fun entry entry' => entry'.1 = entry.1 ∧ entry.2.attribute = .ok entry'.2)
    d.attrs spec.attrs.entries
  outputs : doc.Declares d spec.outputs

/-- The document defines a node with the name at the place. -/
def NodeAt (i : Nat) (name : String) : Prop := ∃ d, doc.nodes[i]? = some d ∧ d.name = name

/-- The edges of a list of references to inputs of the node at place `dst`: one for each reference,
from the node that it names. The data edges enter the slots from `slot` on. -/
inductive Wired (dst : Nat) : Nat → List InputRef → List Edge → Prop where
  | nil {slot : Nat} : Wired dst slot [] []
  | data {slot src output : Nat} {name : String} {refs : List InputRef} {edges : List Edge}
      (hsrc : doc.NodeAt src name) (hrest : Wired dst (slot + 1) refs edges) :
    Wired dst slot (.data name output :: refs) (⟨src, dst, .data output slot⟩ :: edges)
  | control {slot src : Nat} {name : String} {refs : List InputRef} {edges : List Edge}
      (hsrc : doc.NodeAt src name) (hrest : Wired dst slot refs edges) :
    Wired dst slot (.control name :: refs) (⟨src, dst, .control⟩ :: edges)

/-- A graph with a node for each definition and an edge for each input, in the order of the
document. -/
structure Describes (g : Graph) : Prop where
  nodes : List.Forall₂ doc.Defines doc.nodes g.specs.toList
  inputs : ∀ (i : Nat) d, doc.nodes[i]? = some d → ∃ refs,
    List.Forall₂ (fun text ref => InputRef.Written ref text.toList) d.inputs refs ∧
      doc.Wired i 0 refs (g.edges.toList.filter (·.dst = i))
  order : (g.edges.toList.map (·.dst)).Pairwise (· ≤ ·)

/-- What is reported of a document that is not loadable. -/
inductive Fault : Error → Prop where
  | reference {d : NodeDef} {text : String} (hd : d ∈ doc.nodes) (htext : text ∈ d.inputs)
      (h : ∀ ref : InputRef, ¬ ref.Written text.toList) :
    Fault (.invalid (.malformedReference text))
  | conversion {d : NodeDef} {entry : String × AttrDef} {error : Error} (hd : d ∈ doc.nodes)
      (hentry : entry ∈ d.attrs) (h : entry.2.attribute = .error error) : Fault error
  | name {name : String} (h : ¬ (doc.nodes.map (·.name)).Nodup) :
    Fault (.invalid (.duplicateNode name))
  | producer {ref : InputRef} {consumer : String} (href : doc.Refers ref)
      (h : ∀ p ∈ doc.nodes, p.name ≠ ref.node) :
    Fault (.invalid (.unknownProducer ref.node consumer))
  | output {p : NodeDef} {n output : Nat} (hnames : (doc.nodes.map (·.name)).Nodup)
      (hp : p ∈ doc.nodes) (href : doc.Refers (.data p.name output)) (hn : doc.Declares p n)
      (hle : n ≤ output) :
    Fault (.invalid (.noOutput p.name n output))

variable {doc}

theorem Fault.not_loadable {error : Error} (h : doc.Fault error) : ¬ doc.Loadable := by
  intro hload
  cases h with
  | reference hd htext h =>
    obtain ⟨ref, href⟩ := hload.inputs _ hd _ htext
    exact h ref href
  | conversion hd hentry h =>
    obtain ⟨attr, hattr⟩ := hload.attrs _ hd _ hentry
    rw [h] at hattr
    cases hattr
  | name h => exact h hload.names
  | producer href h =>
    obtain ⟨p, hp, hname⟩ := hload.producers _ href
    exact h p hp hname
  | output _ hp href hn hle =>
    have hlt := hload.outputs _ hp _ href _ hn
    omega

theorem Wired.dst_eq {dst slot : Nat} {refs : List InputRef} {edges : List Edge}
    (h : doc.Wired dst slot refs edges) : ∀ e ∈ edges, e.dst = dst := by
  induction h with
  | nil => simp
  | data _ _ ih => simpa using ih
  | control _ _ ih => simpa using ih

/-- Every reference has an edge, from a node with the name that it gives. -/
theorem Wired.exists_edge {dst slot : Nat} {refs : List InputRef} {edges : List Edge}
    (h : doc.Wired dst slot refs edges) {ref : InputRef} (href : ref ∈ refs) :
    ∃ e ∈ edges, doc.NodeAt e.src ref.node ∧
      ∀ name output, ref = .data name output → ∃ input, e.kind = .data output input := by
  induction h with
  | nil => simp at href
  | data hsrc _ ih =>
    obtain rfl | href := List.mem_cons.mp href
    · exact ⟨_, List.mem_cons_self, hsrc, by rintro _ _ ⟨⟩; exact ⟨_, rfl⟩⟩
    · obtain ⟨e, he, h⟩ := ih href
      exact ⟨e, List.mem_cons_of_mem _ he, h⟩
  | control hsrc _ ih =>
    obtain rfl | href := List.mem_cons.mp href
    · exact ⟨_, List.mem_cons_self, hsrc, by rintro _ _ ⟨⟩⟩
    · obtain ⟨e, he, h⟩ := ih href
      exact ⟨e, List.mem_cons_of_mem _ he, h⟩

end Document

/-! ### Nodes of a document in a graph -/

section Nodes

variable {doc : Document} {nodes : List NodeDef} {g : Graph}
  (hnodes : List.Forall₂ doc.Defines nodes g.specs.toList)
include hnodes

theorem node?_rel (i : Nat) :
    Option.Rel (fun d (v : Source.Node) => doc.Defines d v.toNodeSpec) nodes[i]? (g.node? i) := by
  have hrel := forall₂_getElem? hnodes i
  have hspec : g.specs.toList[i]? = (g.node? i).map (·.toNodeSpec) := by
    rw [Array.getElem?_toList, Graph.specs_getElem?]
  rw [hspec] at hrel
  generalize nodes[i]? = o at hrel
  cases hv : g.node? i with
  | none =>
    rw [hv] at hrel
    cases hrel
    exact .none
  | some v =>
    rw [hv] at hrel
    cases hrel with
    | some h => exact .some h

theorem exists_node?_of_getElem? {i : Nat} {d : NodeDef} (hd : nodes[i]? = some d) :
    ∃ v, g.node? i = some v ∧ doc.Defines d v.toNodeSpec := by
  have hrel := node?_rel hnodes i
  rw [hd] at hrel
  generalize g.node? i = o at hrel
  cases hrel with
  | some h => exact ⟨_, rfl, h⟩

theorem exists_getElem?_of_node? {i : Nat} {v : Source.Node} (hv : g.node? i = some v) :
    ∃ d, nodes[i]? = some d ∧ doc.Defines d v.toNodeSpec := by
  have hrel := node?_rel hnodes i
  rw [hv] at hrel
  generalize nodes[i]? = o at hrel
  cases hrel with
  | some h => exact ⟨_, rfl, h⟩

variable (wf : g.WellFormed)
include wf

/-- A name is found at the place of the node that has it. -/
theorem find?_eq_some_iff {name : String} {i : Nat} :
    g.find? name = some i ↔ ∃ d, nodes[i]? = some d ∧ d.name = name := by
  rw [wf.find]
  constructor
  · rintro ⟨v, hv, hname⟩
    obtain ⟨d, hd, hdefines⟩ := exists_getElem?_of_node? hnodes hv
    exact ⟨d, hd, hdefines.name.symm.trans hname⟩
  · rintro ⟨d, hd, hname⟩
    obtain ⟨v, hv, hdefines⟩ := exists_node?_of_getElem? hnodes hd
    exact ⟨v, hv, hdefines.name.trans hname⟩

theorem find?_eq_none_iff {name : String} : g.find? name = none ↔ ∀ d ∈ nodes, d.name ≠ name := by
  rw [Option.eq_none_iff_forall_ne_some]
  constructor
  · intro h d hd hname
    obtain ⟨i, hi⟩ := List.mem_iff_getElem?.mp hd
    exact h i ((find?_eq_some_iff hnodes wf).mpr ⟨d, hi, hname⟩)
  · intro h i hi
    obtain ⟨d, hd, hname⟩ := (find?_eq_some_iff hnodes wf).mp hi
    exact h d (List.mem_of_getElem? hd) hname

theorem map_name_nodup : (nodes.map (·.name)).Nodup := by
  have hnames : nodes.map (·.name) = g.specs.toList.map (·.name) := by
    rw [← List.forall₂_eq_eq_eq, List.forall₂_map_left_iff, List.forall₂_map_right_iff]
    exact hnodes.imp fun d spec h => h.name.symm
  have hspecs : g.specs.toList.map (·.name) = g.nodes.toList.map (·.name) := by
    simp [Graph.specs]
  rw [hnames, hspecs]
  exact wf.names_nodup

end Nodes

/-- A document that describes a graph is loadable. -/
theorem Document.Describes.loadable {doc : Document} {g : Graph} (h : doc.Describes g)
    (wf : g.WellFormed) : doc.Loadable := by
  have hnames := map_name_nodup h.nodes wf
  -- what is true of one reference to an input is read off its edge
  have hedge : ∀ ref, doc.Refers ref → ∃ e ∈ g.edges, doc.NodeAt e.src ref.node ∧
      ∀ name output, ref = .data name output → ∃ input, e.kind = .data output input := by
    rintro ref ⟨d, hd, text, htext, href⟩
    obtain ⟨i, hi⟩ := List.mem_iff_getElem?.mp hd
    obtain ⟨refs, hrefs, hwired⟩ := h.inputs i d hi
    obtain ⟨other, hother, hwritten⟩ := forall₂_exists_right hrefs htext
    obtain rfl := href.unique hwritten
    obtain ⟨e, he, hsrc⟩ := hwired.exists_edge hother
    exact ⟨e, Array.mem_toList_iff.mp (List.mem_of_mem_filter he), hsrc⟩
  have hinputs : ∀ d ∈ doc.nodes, ∀ text ∈ d.inputs, ∃ ref : InputRef, ref.Written text.toList := by
    intro d hd text htext
    obtain ⟨i, hi⟩ := List.mem_iff_getElem?.mp hd
    obtain ⟨refs, hrefs, -⟩ := h.inputs i d hi
    obtain ⟨ref, -, href⟩ := forall₂_exists_right hrefs htext
    exact ⟨ref, href⟩
  refine ⟨hinputs, ?_, hnames, ?_, ?_⟩
  · intro d hd entry hentry
    obtain ⟨spec, -, hdefines⟩ := forall₂_exists_right h.nodes hd
    obtain ⟨entry', -, -, hattr⟩ := forall₂_exists_right hdefines.attrs hentry
    exact ⟨entry'.2, hattr⟩
  · intro ref href
    obtain ⟨e, -, ⟨p, hp, hname⟩, -⟩ := hedge ref href
    exact ⟨p, List.mem_of_getElem? hp, hname⟩
  · intro p hp output href n hn
    obtain ⟨table, htable⟩ := Document.exists_references hinputs
    obtain ⟨e, he, ⟨d, hd, hname⟩, hdata⟩ := hedge _ href
    obtain ⟨input, hkind⟩ := hdata _ _ rfl
    obtain rfl : d = p := List.inj_on_of_nodup_map hnames (List.mem_of_getElem? hd) hp hname
    obtain ⟨v, hv, hdefines⟩ := exists_node?_of_getElem? h.nodes hd
    have hlt := wf.outputs e he output input hkind v hv
    have hsame : v.outputs = n := by
      rw [(Document.declares_iff htable).mp hdefines.outputs, (Document.declares_iff htable).mp hn]
    omega

/-! ### The nodes -/

namespace NodeDef

variable {d : NodeDef}

theorem attributes_eq_ok {attrs : NameTable Attribute} (h : d.attributes = .ok attrs) :
    List.Forall₂ (fun entry entry' => entry'.1 = entry.1 ∧ entry.2.attribute = .ok entry'.2)
      d.attrs attrs.entries := by
  obtain ⟨entries, hentries, h⟩ := except_bind_eq_ok.mp h
  obtain rfl := Except.ok.inj h
  refine (except_mapM_eq_ok.mp hentries).imp fun entry entry' hentry => ?_
  obtain ⟨attr, hattr, h⟩ := except_bind_eq_ok.mp hentry
  obtain rfl := Except.ok.inj h
  exact ⟨rfl, hattr⟩

theorem attributes_error {error : Error} (h : d.attributes = .error error) :
    ∃ entry ∈ d.attrs, entry.2.attribute = .error error := by
  obtain h | ⟨_, -, h⟩ := except_bind_eq_error.mp h
  · obtain ⟨entry, hentry, h⟩ := except_mapM_error h
    obtain h | ⟨_, -, h⟩ := except_bind_eq_error.mp h
    · exact ⟨entry, hentry, h⟩
    · cases h
  · cases h

end NodeDef

/-- A definition is refused for an attribute or for its name, or its node is added. -/
theorem addNodeDef_cases (table : References) (d : NodeDef) (g : Graph) :
    (∃ error, d.attributes = .error error ∧ addNodeDef table d g = .error error g) ∨
    (g.find? d.name ≠ none ∧
      addNodeDef table d g = .error (.invalid (.duplicateNode d.name)) g) ∨
    ∃ attrs, d.attributes = .ok attrs ∧ g.find? d.name = none ∧ addNodeDef table d g =
      .ok () (g.withNode ⟨d.name, d.op, attrs, d.arity (table.get? d.name)⟩) := by
  rw [addNodeDef]
  cases hattrs : d.attributes with
  | error error => exact .inl ⟨error, rfl, rfl⟩
  | ok attrs =>
    refine .inr ?_
    by_cases hfresh : g.find? d.name = none
    · exact .inr ⟨attrs, rfl, hfresh, Step.discard_of_ok (Graph.addNode_of_fresh hfresh)⟩
    · exact .inl ⟨hfresh, Step.discard_of_error (Graph.addNode_of_taken hfresh)⟩

/-- The nodes of all definitions are added, or the document has a fault. -/
theorem nodes_cases {doc : Document} {table : References} (htable : doc.references = .ok table) :
    (∃ g, doc.nodes.forM (addNodeDef table) {} = .ok () g ∧ g.Built ∧ g.edges = #[] ∧
      List.Forall₂ doc.Defines doc.nodes g.specs.toList) ∨
    ∃ error g, doc.nodes.forM (addNodeDef table) {} = .error error g ∧ doc.Fault error := by
  apply Step.forM_cases (fun done (g : Graph) => g.Built ∧ g.edges = #[] ∧
    List.Forall₂ doc.Defines done g.specs.toList) doc.Fault
  · exact ⟨⟨[], rfl⟩, rfl, by simp [Graph.specs]⟩
  · rintro done d rest g hsplit ⟨hbuilt, hedges, hnodes⟩
    have hd : d ∈ doc.nodes := by simp [hsplit]
    obtain ⟨error, hattrs, hrun⟩ | ⟨htaken, hrun⟩ | ⟨attrs, hattrs, hfresh, hrun⟩ :=
      addNodeDef_cases table d g
    · obtain ⟨entry, hentry, h⟩ := NodeDef.attributes_error hattrs
      exact .inr ⟨error, g, hrun, .conversion hd hentry h⟩
    · refine .inr ⟨_, g, hrun, .name ?_⟩
      rw [Ne, find?_eq_none_iff hnodes hbuilt.wellFormed] at htaken
      push Not at htaken
      obtain ⟨earlier, hearlier, hname⟩ := htaken
      intro hnodup
      rw [hsplit, List.map_append, List.nodup_append] at hnodup
      exact hnodup.2.2 _ (List.mem_map_of_mem hearlier) _ (by simp) hname
    · refine .inl ⟨_, hrun, hbuilt.withNode hfresh, hedges, ?_⟩
      rw [Graph.specs_withNode, Array.toList_push]
      refine List.rel_append hnodes (.cons ?_ .nil)
      exact ⟨rfl, rfl, NodeDef.attributes_eq_ok hattrs, Document.declares_arity htable d⟩

/-! ### The edges -/

/-- The data edges into a node so far leave its slots from `slot` on free. -/
def FreeFrom (g : Graph) (dst slot : Nat) : Prop :=
  ∀ e ∈ g.edges, e.dst = dst → ∀ input, e.enters input = true → input < slot

theorem FreeFrom.withEdge_data {g : Graph} {dst slot src output : Nat} (h : FreeFrom g dst slot) :
    FreeFrom (g.withEdge ⟨src, dst, .data output slot⟩) dst (slot + 1) := by
  intro e he hdst input hinput
  obtain he | rfl := Graph.mem_edges_withEdge.mp he
  · have hlt := h e he hdst input hinput
    omega
  · obtain ⟨_, hkind⟩ := Edge.enters_iff.mp hinput
    cases hkind
    omega

theorem FreeFrom.withEdge_control {g : Graph} {dst slot src : Nat} (h : FreeFrom g dst slot) :
    FreeFrom (g.withEdge ⟨src, dst, .control⟩) dst slot := by
  intro e he hdst input hinput
  obtain he | rfl := Graph.mem_edges_withEdge.mp he
  · exact h e he hdst input hinput
  · obtain ⟨_, hkind⟩ := Edge.enters_iff.mp hinput
    cases hkind

section Edges

variable {doc : Document} {g : Graph} (hbuilt : g.Built)
  (hnodes : List.Forall₂ doc.Defines doc.nodes g.specs.toList)
include hbuilt hnodes

theorem producerOf_cases (name consumer : String) :
    ((∀ p ∈ doc.nodes, p.name ≠ name) ∧
      producerOf name consumer g = .error (.invalid (.unknownProducer name consumer)) g) ∨
    ∃ src, doc.NodeAt src name ∧ producerOf name consumer g = .ok src g := by
  rw [producerOf, Step.bind_of_ok (Step.get_apply g)]
  cases hfind : g.find? name with
  | none => exact .inl ⟨(find?_eq_none_iff hnodes hbuilt.wellFormed).mp hfind, rfl⟩
  | some src => exact .inr ⟨src, (find?_eq_some_iff hnodes hbuilt.wellFormed).mp hfind, rfl⟩

/-- A data edge is added to the next slot, or its output is not declared. -/
theorem addData_cases {src output dst slot : Nat} {name : String} (hsrc : doc.NodeAt src name)
    (hdst : dst < g.nodes.size) (hfree : FreeFrom g dst slot)
    (href : doc.Refers (.data name output)) :
    (∃ error, addEdge src output dst slot g = .error error g ∧ doc.Fault error) ∨
    g.Fits ⟨src, dst, .data output slot⟩ := by
  obtain ⟨d, hd, rfl⟩ := hsrc
  obtain ⟨producer, hp, hdefines⟩ := exists_node?_of_getElem? hnodes hd
  obtain ⟨consumer, hc⟩ := Graph.exists_node? hdst
  by_cases hle : producer.outputs ≤ output
  · refine .inl ⟨_, Graph.addEdge_of_no_output hp hc hle, ?_⟩
    rw [hdefines.name]
    exact .output (map_name_nodup hnodes hbuilt.wellFormed) (List.mem_of_getElem? hd) href
      hdefines.outputs hle
  · refine .inr ⟨⟨producer, hp, ?_⟩, consumer, hc, ?_⟩
    · rintro _ _ ⟨⟩
      omega
    · rintro _ _ ⟨⟩
      rw [Option.eq_none_iff_forall_ne_some]
      intro e he
      obtain ⟨hmem, hto, henters⟩ := (hbuilt.wellFormed.inputEdge?_eq_some hc).mp he
      exact Nat.lt_irrefl _ (hfree e hmem hto _ henters)

omit hbuilt in
theorem control_fits {src dst : Nat} {name : String} (hsrc : doc.NodeAt src name)
    (hdst : dst < g.nodes.size) : g.Fits ⟨src, dst, .control⟩ := by
  obtain ⟨d, hd, -⟩ := hsrc
  obtain ⟨producer, hp, -⟩ := exists_node?_of_getElem? hnodes hd
  obtain ⟨consumer, hc⟩ := Graph.exists_node? hdst
  exact ⟨⟨producer, hp, nofun⟩, consumer, hc, nofun⟩

end Edges

/-- How adding the edges of a list of references can end: with one edge for each reference behind
those of the graph, or at a fault of the document. -/
inductive InputsAdded (doc : Document) (g : Graph) (dst slot : Nat) (refs : List InputRef) :
    EStateM.Result Error Graph Unit → Prop where
  | done {h : Graph} {edges : List Edge} (hbuilt : h.Built) (hspecs : h.specs = g.specs)
      (hedges : h.edges.toList = g.edges.toList ++ edges) (hwired : doc.Wired dst slot refs edges) :
    InputsAdded doc g dst slot refs (.ok () h)
  | fault {error : Error} {h : Graph} (hfault : doc.Fault error) :
    InputsAdded doc g dst slot refs (.error error h)

/-- The edge of the first reference, before those of the others. -/
theorem InputsAdded.cons {doc : Document} {g : Graph} {e : Edge} {dst slot next : Nat}
    {ref : InputRef} {refs : List InputRef} {r : EStateM.Result Error Graph Unit}
    (hrest : InputsAdded doc (g.withEdge e) dst next refs r)
    (hwire : ∀ edges, doc.Wired dst next refs edges →
      doc.Wired dst slot (ref :: refs) (e :: edges)) :
    InputsAdded doc g dst slot (ref :: refs) r := by
  cases hrest with
  | done hbuilt hspecs hedges hwired =>
    refine .done hbuilt (hspecs.trans (g.specs_withEdge e)) ?_ (hwire _ hwired)
    rw [hedges, Graph.edges_withEdge, Array.toList_push, List.append_assoc]
    rfl
  | fault hfault => exact .fault hfault

theorem addInputs_ends {doc : Document} {g : Graph} (hbuilt : g.Built)
    (hnodes : List.Forall₂ doc.Defines doc.nodes g.specs.toList) {dst slot : Nat}
    (hdst : dst < g.nodes.size) (hfree : FreeFrom g dst slot) (consumer : String)
    {refs : List InputRef} (hrefs : ∀ ref ∈ refs, doc.Refers ref) :
    InputsAdded doc g dst slot refs (addInputs consumer dst slot refs g) := by
  induction refs generalizing g slot with
  | nil => exact .done hbuilt rfl (List.append_nil _).symm .nil
  | cons ref refs ih =>
    have href := hrefs ref List.mem_cons_self
    have hrest : ∀ ref ∈ refs, doc.Refers ref := fun ref h => hrefs ref (List.mem_cons_of_mem _ h)
    -- an edge that fits leaves the nodes as they are, so the other references go on from there
    have hsize : ∀ e, dst < (g.withEdge e).nodes.size := by
      intro e
      rw [Graph.nodes_size_withEdge]
      exact hdst
    have hspecs : ∀ e, List.Forall₂ doc.Defines doc.nodes (g.withEdge e).specs.toList := by
      intro e
      rw [Graph.specs_withEdge]
      exact hnodes
    cases ref with
    | data name output =>
      rw [addInputs]
      obtain ⟨hnone, hrun⟩ | ⟨src, hsrc, hrun⟩ := producerOf_cases hbuilt hnodes name consumer
      · rw [Step.bind_of_error hrun]
        exact .fault (.producer href hnone)
      · rw [Step.bind_of_ok hrun]
        obtain ⟨error, hrun, hfault⟩ | fits := addData_cases hbuilt hnodes hsrc hdst hfree href
        · rw [Step.bind_of_error (Step.discard_of_error hrun)]
          exact .fault hfault
        · rw [Step.bind_of_ok (Step.discard_of_ok (Graph.addEdge_of_fits fits))]
          have hnext := ih (hbuilt.withEdge fits) (hspecs _) (hsize _) hfree.withEdge_data hrest
          exact hnext.cons fun edges hwired => .data hsrc hwired
    | control name =>
      rw [addInputs]
      obtain ⟨hnone, hrun⟩ | ⟨src, hsrc, hrun⟩ := producerOf_cases hbuilt hnodes name consumer
      · rw [Step.bind_of_error hrun]
        exact .fault (.producer href hnone)
      · rw [Step.bind_of_ok hrun]
        have fits := control_fits hnodes hsrc hdst
        rw [Step.bind_of_ok (Step.discard_of_ok (Graph.addControl_of_fits fits))]
        have hnext := ih (hbuilt.withEdge fits) (hspecs _) (hsize _) hfree.withEdge_control hrest
        exact hnext.cons fun edges hwired => .control hsrc hwired

/-! ### Whole documents -/

/-- The edges into the nodes `done` have been added, node after node. -/
structure EdgesDone (doc : Document) (done : List NodeDef) (g : Graph) : Prop where
  built : g.Built
  nodes : List.Forall₂ doc.Defines doc.nodes g.specs.toList
  bound : ∀ e ∈ g.edges, e.dst < done.length
  inputs : ∀ (i : Nat) d, done[i]? = some d → ∃ refs,
    List.Forall₂ (fun text ref => InputRef.Written ref text.toList) d.inputs refs ∧
      doc.Wired i 0 refs (g.edges.toList.filter (·.dst = i))
  order : (g.edges.toList.map (·.dst)).Pairwise (· ≤ ·)

section Blocks

variable {old edges : List Edge} {n : Nat} (hdst : ∀ e ∈ edges, e.dst = n)
include hdst

theorem filter_dst_append_of_lt {i : Nat} (hi : i < n) :
    (old ++ edges).filter (·.dst = i) = old.filter (·.dst = i) := by
  have hnone : edges.filter (·.dst = i) = [] := by
    rw [List.filter_eq_nil_iff]
    intro e he
    have heq := hdst e he
    simp only [decide_eq_true_eq]
    omega
  rw [List.filter_append, hnone, List.append_nil]

theorem filter_dst_append_self (hbound : ∀ e ∈ old, e.dst < n) :
    (old ++ edges).filter (·.dst = n) = edges := by
  have hnone : old.filter (·.dst = n) = [] := by
    rw [List.filter_eq_nil_iff]
    intro e he
    have hlt := hbound e he
    simp only [decide_eq_true_eq]
    omega
  have hall : edges.filter (·.dst = n) = edges := by
    rw [List.filter_eq_self]
    intro e he
    simpa using hdst e he
  rw [List.filter_append, hnone, hall, List.nil_append]

theorem pairwise_dst_append (hbound : ∀ e ∈ old, e.dst < n)
    (hold : (old.map (·.dst)).Pairwise (· ≤ ·)) :
    ((old ++ edges).map (·.dst)).Pairwise (· ≤ ·) := by
  rw [List.map_append, List.pairwise_append]
  refine ⟨hold, ?_, ?_⟩
  · rw [List.pairwise_map]
    apply List.pairwise_of_forall_mem_list
    intro e he e' he'
    rw [hdst e he, hdst e' he']
  · intro i hi j hj
    obtain ⟨e, he, rfl⟩ := List.mem_map.mp hi
    obtain ⟨e', he', rfl⟩ := List.mem_map.mp hj
    rw [hdst e' he']
    exact (hbound e he).le

end Blocks

/-- The edges into one more node stand behind all others. -/
theorem EdgesDone.step {doc : Document} {done : List NodeDef} {g h : Graph}
    (hdone : EdgesDone doc done g) {d : NodeDef} {refs : List InputRef} {edges : List Edge}
    (hbuilt : h.Built) (hspecs : h.specs = g.specs)
    (hedges : h.edges.toList = g.edges.toList ++ edges)
    (hrefs : List.Forall₂ (fun text ref => InputRef.Written ref text.toList) d.inputs refs)
    (hwired : doc.Wired done.length 0 refs edges) : EdgesDone doc (done ++ [d]) h := by
  have hdst := hwired.dst_eq
  have hbound : ∀ e ∈ g.edges.toList, e.dst < done.length := by
    intro e he
    exact hdone.bound e (Array.mem_toList_iff.mp he)
  refine ⟨hbuilt, hspecs ▸ hdone.nodes, ?_, ?_, ?_⟩
  · intro e he
    rw [← Array.mem_toList_iff, hedges, List.mem_append] at he
    rw [List.length_append, List.length_singleton]
    obtain he | he := he
    · have hlt := hbound e he
      omega
    · have heq := hdst e he
      omega
  · intro i d' hd'
    rw [hedges]
    by_cases hi : i < done.length
    · rw [List.getElem?_append_left hi] at hd'
      rw [filter_dst_append_of_lt hdst hi]
      exact hdone.inputs i d' hd'
    · rw [List.getElem?_append_right (Nat.not_lt.mp hi)] at hd'
      obtain ⟨hzero, rfl⟩ : i - done.length = 0 ∧ d = d' := by
        simpa [List.getElem?_singleton] using hd'
      obtain rfl : i = done.length := by omega
      rw [filter_dst_append_self hdst hbound]
      exact ⟨refs, hrefs, hwired⟩
  · rw [hedges]
    exact pairwise_dst_append hdst hbound hdone.order

theorem edges_cases {doc : Document} {g : Graph} (hbuilt : g.Built)
    (hnodes : List.Forall₂ doc.Defines doc.nodes g.specs.toList) (hedges : g.edges = #[])
    (hrefs : ∀ d ∈ doc.nodes, ∃ refs, d.references = .ok refs) :
    (∃ h, doc.nodes.forM addEdges g = .ok () h ∧ EdgesDone doc doc.nodes h) ∨
    ∃ error h, doc.nodes.forM addEdges g = .error error h ∧ doc.Fault error := by
  apply Step.forM_cases (EdgesDone doc) doc.Fault
  · exact ⟨hbuilt, hnodes, by simp [hedges], by simp, by simp [hedges]⟩
  · intro done d rest h hsplit hdone
    have hd : doc.nodes[done.length]? = some d := by simp [hsplit]
    obtain ⟨refs, hread⟩ := hrefs d (List.mem_of_getElem? hd)
    have hwritten := NodeDef.references_eq_ok.mp hread
    have hrefers : ∀ ref ∈ refs, doc.Refers ref := by
      intro ref href
      obtain ⟨text, htext, h⟩ := forall₂_exists_left hwritten href
      exact ⟨d, List.mem_of_getElem? hd, text, htext, h⟩
    have hfind : h.find? d.name = some done.length :=
      (find?_eq_some_iff hdone.nodes hdone.built.wellFormed).mpr ⟨d, hd, rfl⟩
    have hrun : addEdges d h = addInputs d.name done.length 0 refs h := by
      rw [addEdges, Step.bind_of_ok (Step.get_apply h), hfind]
      dsimp only
      rw [hread]
      exact Step.bind_of_ok rfl
    obtain ⟨v, hv, -⟩ := exists_node?_of_getElem? hdone.nodes hd
    have hfree : FreeFrom h done.length 0 := by
      intro e he hdst
      have hlt := hdone.bound e he
      omega
    have hends := addInputs_ends hdone.built hdone.nodes (Graph.node?_lt hv) hfree d.name hrefers
    rw [hrun]
    generalize addInputs d.name done.length 0 refs h = r at hends
    cases hends with
    | done hbuilt hspecs hedges hwired =>
      exact .inl ⟨_, rfl, hdone.step hbuilt hspecs hedges hwritten hwired⟩
    | fault hfault => exact .inr ⟨_, _, rfl, hfault⟩

/-- A document has a graph, which it describes, or a fault, which is reported. -/
theorem graph_cases (doc : Document) :
    (∃ g, doc.graph = .ok g ∧ g.Built ∧ doc.Describes g) ∨
    ∃ error, doc.graph = .error error ∧ doc.Fault error := by
  unfold Document.graph
  cases htable : doc.references with
  | error error =>
    obtain ⟨d, hd, text, htext, rfl, h⟩ := Document.references_error htable
    exact .inr ⟨_, rfl, .reference hd htext h⟩
  | ok table =>
    rw [except_ok_bind]
    unfold Document.build
    obtain ⟨g, hrun, hbuilt, hedges, hnodes⟩ | ⟨error, g, hrun, hfault⟩ := nodes_cases htable
    · rw [Step.bind_of_ok hrun]
      obtain ⟨h, hrun, hdone⟩ | ⟨error, h, hrun, hfault⟩ :=
        edges_cases hbuilt hnodes hedges (Document.references_eq_ok htable).1
      · rw [hrun]
        exact .inl ⟨h, rfl, hdone.built, hdone.nodes, hdone.inputs, hdone.order⟩
      · rw [hrun]
        exact .inr ⟨error, rfl, hfault⟩
    · rw [Step.bind_of_error hrun]
      exact .inr ⟨error, rfl, hfault⟩

/-! ### Faults that cannot be -/

/-- The failures that speak of an edge, and not of what a document says of a node. -/
def Error.OfEdge : Error → Prop
  | .invalid (.noOutput ..) => True
  | .invalid (.inputConnected ..) => True
  | .invalid (.nodeLost _) => True
  | _ => False

theorem namedType_error {name : String} {error : Error} (h : namedType name = .error error) :
    ¬ error.OfEdge := by
  unfold namedType at h
  split at h
  · cases h
  · obtain rfl := Except.error.inj h
    exact id

namespace TensorDef

variable {t : TensorDef} {error : Error}

theorem convert_error {α : Type} {type : DataType} {read? : Json.Value → Option α}
    (h : t.convert type read? = .error error) : ¬ error.OfEdge := by
  obtain h | ⟨_, -, h⟩ := except_bind_eq_error.mp h
  · obtain ⟨value, -, h⟩ := except_mapM_error h
    split at h
    · cases h
    · obtain rfl := Except.error.inj h
      exact id
  · cases h

theorem elements_error {type : DataType} (h : t.elements type = .error error) :
    ¬ error.OfEdge := by
  cases type with
  | string =>
    obtain rfl := Except.error.inj h
    exact id
  | _ =>
    -- all other types convert every value and wrap the result
    obtain h | ⟨_, -, h⟩ := except_bind_eq_error.mp h
    · exact convert_error h
    · cases h

theorem tensor_error (h : t.tensor = .error error) : ¬ error.OfEdge := by
  obtain h | ⟨type, -, h⟩ := except_bind_eq_error.mp h
  · exact namedType_error h
  · obtain h | ⟨data, -, h⟩ := except_bind_eq_error.mp h
    · exact elements_error h
    · unfold Tensor.ofElements at h
      split at h
      · cases h
      · obtain rfl := Except.error.inj h
        exact id

end TensorDef

theorem AttrDef.attribute_error {attr : AttrDef} {error : Error}
    (h : attr.attribute = .error error) : ¬ error.OfEdge := by
  cases attr with
  | type name =>
    obtain h | ⟨_, -, h⟩ := except_bind_eq_error.mp h
    · exact namedType_error h
    · cases h
  | tensor value =>
    obtain h | ⟨_, -, h⟩ := except_bind_eq_error.mp h
    · exact TensorDef.tensor_error h
    · cases h
  | int _ => cases h
  | float _ => cases h
  | bool _ => cases h
  | text _ => cases h
  | shape _ => cases h
  | ints _ => cases h

/-- No fault is a slot that is taken or a node that is lost, and an output that is not declared is
reported only of a node that says how many it has. -/
theorem Document.Fault.no_edge_fault {doc : Document} {error : Error} (h : doc.Fault error) :
    (∀ node slot, error ≠ .invalid (.inputConnected node slot)) ∧
    (∀ node, error ≠ .invalid (.nodeLost node)) ∧
    ∀ d ∈ doc.nodes, d.outputs = none →
      (∀ n : Nat, d.attrs.lookup "num_split" ≠ some (.int n)) →
      ∀ declared output, error ≠ .invalid (.noOutput d.name declared output) := by
  cases h with
  | reference _ _ _ => exact ⟨nofun, nofun, fun _ _ _ _ => nofun⟩
  | name _ => exact ⟨nofun, nofun, fun _ _ _ _ => nofun⟩
  | producer _ _ => exact ⟨nofun, nofun, fun _ _ _ _ => nofun⟩
  | conversion _ _ h =>
    have hnot := AttrDef.attribute_error h
    refine ⟨?_, ?_, ?_⟩
    · rintro node slot rfl
      exact hnot trivial
    · rintro node rfl
      exact hnot trivial
    · rintro d - - - declared output rfl
      exact hnot trivial
  | @output p n k hnames hp href hn hle =>
    refine ⟨nofun, nofun, ?_⟩
    intro d hd hout hsplit declared output hsame
    have hname : p.name = d.name := by
      injection hsame with hcause
      injection hcause
    obtain rfl : p = d := List.inj_on_of_nodup_map hnames hp hd hname
    have hlt := hn.lt_of_open hout hsplit href
    omega

theorem loadGraph_of_read {text : String} {doc : Document} (h : Document.read? text = some doc) :
    loadGraph text = doc.graph := by
  rw [loadGraph, h]

theorem loadGraph_eq_ok {text : String} {g : Source.Graph} :
    loadGraph text = .ok g ↔ ∃ doc, Document.read? text = some doc ∧ doc.graph = .ok g := by
  unfold loadGraph
  cases Document.read? text <;> simp

/-- **Loading is faithful.** A document is loaded exactly if its inputs are written well and name
declared outputs of its nodes, its attributes can be converted and its names are distinct. The graph
has its nodes and edges in the order of the document. No slot is ever found taken and no node lost,
and a node that does not say how many outputs it has always has those that are asked of it. A text
that writes the document is loaded as the document is. -/
theorem loadGraph_faithful (doc : Document) :
    ((∃ g, doc.graph = .ok g) ↔ doc.Loadable) ∧
    (∀ g, doc.graph = .ok g → g.Built ∧ doc.Describes g) ∧
    (∀ error, doc.graph = .error error →
      (∀ node slot, error ≠ .invalid (.inputConnected node slot)) ∧
      (∀ node, error ≠ .invalid (.nodeLost node)) ∧
      ∀ d ∈ doc.nodes, d.outputs = none →
        (∀ n : Nat, d.attrs.lookup "num_split" ≠ some (.int n)) →
        ∀ declared output, error ≠ .invalid (.noOutput d.name declared output)) ∧
    ∀ text, Document.read? text = some doc → loadGraph text = doc.graph := by
  refine ⟨?_, ?_, ?_, fun text hread => loadGraph_of_read hread⟩ <;>
    obtain ⟨g, hg, hbuilt, hdescribes⟩ | ⟨error, herror, hfault⟩ := graph_cases doc
  · exact ⟨fun _ => hdescribes.loadable hbuilt.wellFormed, fun _ => ⟨g, hg⟩⟩
  · rw [herror]
    exact ⟨nofun, fun h => absurd h hfault.not_loadable⟩
  · intro g' hg'
    obtain rfl := Except.ok.inj (hg.symm.trans hg')
    exact ⟨hbuilt, hdescribes⟩
  · rw [herror]
    exact nofun
  · rw [hg]
    exact nofun
  · intro error' herror'
    obtain rfl := Except.error.inj (herror.symm.trans herror')
    exact hfault.no_edge_fault

/-- A sum of both outputs of a node that the document defines behind it, and behind another node. -/
def forwardSum : String :=
  "\x7b\"node\":[\x7b\"name\":\"y\",\"op\":\"AddN\",\"input\":[\"s:1\",\"^i\",\"s\"]\x7d," ++
  "\x7b\"name\":\"s\",\"op\":\"Split\"\x7d," ++
  "\x7b\"name\":\"i\",\"op\":\"NoOp\",\"num_outputs\":0\x7d]\x7d"

/-- Output 7 of a node that says nothing of its outputs, and output 2 of one that has two. -/
def wideSum : String :=
  "\x7b\"node\":[\x7b\"name\":\"y\",\"op\":\"AddN\",\"input\":[\"x:7\",\"s:2\"]\x7d," ++
  "\x7b\"name\":\"x\",\"op\":\"Split\"\x7d," ++
  "\x7b\"name\":\"s\",\"op\":\"Split\",\"attr\":\x7b\"num_split\":\x7b\"i\":2\x7d\x7d\x7d]\x7d"

theorem sums_loaded_or_refused :
    (∃ doc g, Document.read? forwardSum = some doc ∧ loadGraph forwardSum = .ok g ∧
      g.edges = #[⟨1, 0, .data 1 0⟩, ⟨2, 0, .control⟩, ⟨1, 0, .data 0 1⟩] ∧
      doc.Loadable ∧ doc.Describes g) ∧
    ∃ doc, Document.read? wideSum = some doc ∧
      loadGraph wideSum = .error (.invalid (.noOutput "s" 2 2)) ∧ ¬ doc.Loadable := by
  have hedges : (loadGraph forwardSum).toOption.map (·.edges) =
      some #[⟨1, 0, .data 1 0⟩, ⟨2, 0, .control⟩, ⟨1, 0, .data 0 1⟩] := by decide +kernel
  have hrefused : loadGraph wideSum = .error (.invalid (.noOutput "s" 2 2)) := by decide +kernel
  constructor
  · cases hread : Document.read? forwardSum with
    | none =>
      rw [loadGraph, hread] at hedges
      cases hedges
    | some doc =>
      obtain ⟨hiff, hdescribes, -, htext⟩ := loadGraph_faithful doc
      cases hload : loadGraph forwardSum with
      | error error =>
        rw [hload] at hedges
        cases hedges
      | ok g =>
        have hg : doc.graph = .ok g := (htext _ hread).symm.trans hload
        rw [hload] at hedges
        exact ⟨doc, g, rfl, rfl, Option.some.inj hedges, hiff.mp ⟨g, hg⟩, (hdescribes g hg).2⟩
  · cases hread : Document.read? wideSum with
    | none =>
      rw [loadGraph, hread] at hrefused
      cases hrefused
    | some doc =>
      obtain ⟨hiff, -, -, htext⟩ := loadGraph_faithful doc
      refine ⟨doc, rfl, hrefused, fun hloadable => ?_⟩
      obtain ⟨g, hg⟩ := hiff.mpr hloadable
      rw [htext _ hread, hg] at hrefused
      cases hrefused

end GraphLowering
