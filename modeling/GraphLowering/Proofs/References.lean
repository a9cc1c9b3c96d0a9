import Mathlib
import GraphLowering.Document.Load
import GraphLowering.Proofs.Step

/-!
# What a document asks of its nodes

The texts of the inputs follow a small grammar, stated here as a relation and shown to be what the
reader of references accepts. All references of a document together ask for outputs of its nodes.
The greatest output that is asked of a node decides how many outputs it declares, unless the
document says so itself.

* `Text.splitLast?_append`, `Text.splitLast?_eq_some` — the last divider of a text.
* `InputRef.Written`, `InputRef.parse_eq_ok` — the texts that write a reference.
* `Document.Refers` — a document has a reference.
* `References.asked_foldl` — the greatest output that a list of references asks of a node.
* `Document.Declares`, `Document.declares_iff` — how many outputs a node declares.
-/

namespace GraphLowering

/-! ### The last divider of a text -/

namespace Text

variable {divider : Char} {text before after : List Char}

theorem splitLast?_eq_none : splitLast? divider text = none ↔ divider ∉ text := by
  induction text with
  | nil => simp [splitLast?]
  | cons c cs ih =>
    rw [splitLast?, List.mem_cons, not_or, ← ih]
    cases splitLast? divider cs with
    | some parts => simp
    | none =>
      by_cases hc : c = divider
      · simp [hc]
      · simp [hc, Ne.symm hc]

theorem splitLast?_append (h : divider ∉ after) :
    splitLast? divider (before ++ divider :: after) = some (before, after) := by
  induction before with
  | nil =>
    rw [List.nil_append, splitLast?, splitLast?_eq_none.mpr h]
    simp
  | cons c before ih => rw [List.cons_append, splitLast?, ih]

theorem splitLast?_eq_some (h : splitLast? divider text = some (before, after)) :
    text = before ++ divider :: after ∧ divider ∉ after := by
  induction text generalizing before with
  | nil => simp [splitLast?] at h
  | cons c cs ih =>
    rw [splitLast?] at h
    cases hcs : splitLast? divider cs with
    | some parts =>
      rw [hcs] at h
      obtain ⟨rfl, rfl⟩ := Prod.mk.inj (Option.some.inj h)
      obtain ⟨hsplit, hafter⟩ := ih hcs
      exact ⟨by rw [hsplit, List.cons_append], hafter⟩
    | none =>
      rw [hcs] at h
      by_cases hc : c = divider
      · rw [if_pos hc] at h
        obtain ⟨rfl, rfl⟩ := Prod.mk.inj (Option.some.inj h)
        exact ⟨by rw [hc, List.nil_append], splitLast?_eq_none.mp hcs⟩
      · rw [if_neg hc] at h
        cases h

end Text

/-! ### Texts that write a reference -/

namespace InputRef

/-- The node that a reference names. -/
def node : InputRef → String
  | data name _ => name
  | control name => name

/-- The characters that write a reference: a caret and a name for an order, a name without a colon
for output 0, and a name and a number with a colon between them for any output. No name is empty,
and a name that is not behind a caret does not begin with one. -/
inductive Written : InputRef → List Char → Prop where
  | control {name : List Char} (h : name ≠ []) :
    Written (.control (String.ofList name)) ('^' :: name)
  | plain {name : List Char} (h : name ≠ []) (hcaret : name.head? ≠ some '^')
      (hcolon : ':' ∉ name) :
    Written (.data (String.ofList name) 0) name
  | numbered {name digits : List Char} {output : Nat} (h : name ≠ [])
      (hcaret : name.head? ≠ some '^') (hcolon : ':' ∉ digits)
      (hdigits : Text.size? digits = some output) :
    Written (.data (String.ofList name) output) (name ++ ':' :: digits)

variable {text : List Char} {ref : InputRef}

theorem ofChars?_of_no_colon (hcaret : text.head? ≠ some '^')
    (h : Text.splitLast? ':' text = none) :
    ofChars? text = if text.isEmpty then none else some (.data (String.ofList text) 0) := by
  unfold ofChars?
  split
  · exact absurd rfl hcaret
  · rw [h]
    rfl

theorem ofChars?_of_colon (hcaret : text.head? ≠ some '^') {name digits : List Char}
    (h : Text.splitLast? ':' text = some (name, digits)) :
    ofChars? text = (Text.size? digits).bind fun output =>
      if name.isEmpty then none else some (.data (String.ofList name) output) := by
  unfold ofChars?
  split
  · exact absurd rfl hcaret
  · rw [h]
    dsimp only
    cases Text.size? digits with
    | none => rfl
    | some output => rfl

theorem Written.ofChars? (h : Written ref text) : InputRef.ofChars? text = some ref := by
  cases h with
  | control h => simp [InputRef.ofChars?, h]
  | plain h hcaret hcolon =>
    rw [ofChars?_of_no_colon hcaret (Text.splitLast?_eq_none.mpr hcolon)]
    simp [h]
  | @numbered name digits output h hcaret hcolon hdigits =>
    rw [← List.head?_append_of_ne_nil name h] at hcaret
    rw [ofChars?_of_colon hcaret (Text.splitLast?_append hcolon), hdigits]
    simp [h]

theorem Written.unique {other : InputRef} (h : Written ref text) (h' : Written other text) :
    ref = other :=
  Option.some.inj (h.ofChars?.symm.trans h'.ofChars?)

theorem written_of_ofChars? (h : ofChars? text = some ref) : Written ref text := by
  by_cases hcaret : text.head? = some '^'
  · obtain ⟨name, rfl⟩ : ∃ name, text = '^' :: name := List.head?_eq_some_iff.mp hcaret
    by_cases hname : name = []
    · simp [InputRef.ofChars?, hname] at h
    · obtain rfl : .control (String.ofList name) = ref := by
        simpa [InputRef.ofChars?, hname] using h
      exact .control hname
  · cases hsplit : Text.splitLast? ':' text with
    | none =>
      rw [ofChars?_of_no_colon hcaret hsplit] at h
      by_cases hname : text = []
      · simp [hname] at h
      · obtain rfl : .data (String.ofList text) 0 = ref := by simpa [hname] using h
        exact .plain hname hcaret (Text.splitLast?_eq_none.mp hsplit)
    | some parts =>
      obtain ⟨name, digits⟩ := parts
      rw [ofChars?_of_colon hcaret hsplit] at h
      obtain ⟨output, hdigits, h⟩ := Option.bind_eq_some_iff.mp h
      obtain ⟨rfl, hcolon⟩ := Text.splitLast?_eq_some hsplit
      by_cases hname : name = []
      · simp [hname] at h
      · obtain rfl : .data (String.ofList name) output = ref := by simpa [hname] using h
        rw [List.head?_append_of_ne_nil _ hname] at hcaret
        exact .numbered hname hcaret hcolon hdigits

/-- A text is read as the reference that it writes. -/
theorem parse_eq_ok {text : String} {ref : InputRef} :
    parse text = .ok ref ↔ ref.Written text.toList := by
  unfold parse
  cases h : InputRef.ofChars? text.toList with
  | some other =>
    constructor
    · intro hother
      exact written_of_ofChars? (h.trans (congrArg some (Except.ok.inj hother)))
    · intro hwritten
      rw [hwritten.ofChars?] at h
      rw [Option.some.inj h]
  | none =>
    constructor
    · exact nofun
    · intro hwritten
      rw [hwritten.ofChars?] at h
      cases h

theorem parse_error {text : String} {error : Error} (h : parse text = .error error) :
    error = .invalid (.malformedReference text) ∧ ∀ ref, ¬ Written ref text.toList := by
  have hnot : ∀ ref, ¬ Written ref text.toList := by
    intro ref hwritten
    rw [parse_eq_ok.mpr hwritten] at h
    cases h
  unfold parse at h
  cases hchars : InputRef.ofChars? text.toList with
  | some ref => exact absurd (written_of_ofChars? hchars) (hnot ref)
  | none =>
    rw [hchars] at h
    exact ⟨(Except.error.inj h).symm, hnot⟩

end InputRef

/-! ### The greatest output that is asked of a node -/

/-- The outputs of a node that a list of references asks for. -/
def InputRef.asked (refs : List InputRef) (name : String) : Set Nat :=
  {output | .data name output ∈ refs}

/-- The greatest number of a set, where a set without numbers has none. -/
def GreatestOf (s : Set Nat) : Option Nat → Prop
  | none => s = ∅
  | some greatest => IsGreatest s greatest

section Asked

variable {refs : List InputRef} {name : String}

theorem InputRef.asked_append_self (output : Nat) :
    asked (refs ++ [.data name output]) name = insert output (asked refs name) := by
  ext other
  simp [asked, or_comm]

theorem InputRef.asked_append_other {ref : InputRef} (h : ∀ output, ref ≠ .data name output) :
    asked (refs ++ [ref]) name = asked refs name := by
  ext other
  simp [asked, (h other).symm]

/-- A note of one more reference keeps the greatest output of every node. -/
theorem References.greatestOf_note {table : References}
    (h : GreatestOf (InputRef.asked refs name) (table.get? name)) (ref : InputRef) :
    GreatestOf (InputRef.asked (refs ++ [ref]) name) ((table.note ref).get? name) := by
  cases ref with
  | control other =>
    have hother : ∀ k, InputRef.control other ≠ .data name k := by
      intro k
      exact nofun
    rw [InputRef.asked_append_other hother]
    exact h
  | data other output =>
    rw [References.note, NameTable.get?_insert]
    by_cases hname : name = other
    · subst hname
      rw [if_pos rfl, InputRef.asked_append_self]
      cases hget : table.get? name with
      | none =>
        rw [hget] at h
        rw [show InputRef.asked refs name = ∅ from h]
        simp [GreatestOf]
      | some greatest =>
        rw [hget] at h
        exact IsGreatest.insert output h
    · have hother : ∀ k, InputRef.data other output ≠ .data name k := by
        intro k hsame
        exact hname (InputRef.data.inj hsame).1.symm
      rw [if_neg hname, InputRef.asked_append_other hother]
      exact h

theorem References.greatestOf_foldl (refs : List InputRef) (name : String) :
    GreatestOf (InputRef.asked refs name) ((refs.foldl References.note .empty).get? name) := by
  induction refs using List.reverseRecOn with
  | nil => exact Set.eq_empty_of_forall_notMem fun output => List.not_mem_nil
  | append_singleton refs ref ih =>
    rw [List.foldl_append]
    exact References.greatestOf_note ih ref

end Asked

/-! ### How many outputs a node declares -/

namespace NodeDef

variable {d : NodeDef}

theorem references_eq_ok {refs : List InputRef} :
    d.references = .ok refs ↔
      List.Forall₂ (fun text ref => InputRef.Written ref text.toList) d.inputs refs := by
  rw [references, except_mapM_eq_ok]
  simp only [InputRef.parse_eq_ok]

/-- Without its own word on them, a node declares the outputs that its consumers ask for. -/
theorem arity_of_open (h : d.outputs = none)
    (hsplit : ∀ n : Nat, d.attrs.lookup "num_split" ≠ some (.int n)) (referenced : Option Nat) :
    d.arity referenced = (referenced.map (· + 1)).getD 1 := by
  have hneg : ∀ pieces, d.attrs.lookup "num_split" = some (.int pieces) → ¬ 0 ≤ pieces := by
    intro pieces hpieces hnonneg
    rw [← Int.toNat_of_nonneg hnonneg] at hpieces
    exact hsplit _ hpieces
  unfold arity
  rw [h]
  cases referenced with
  | none =>
    dsimp only
    split
    case h_1 pieces hpieces => exact if_neg (hneg pieces hpieces)
    case h_2 => rfl
  | some greatest =>
    dsimp only
    split
    case h_1 pieces hpieces => exact if_neg (hneg pieces hpieces)
    case h_2 => rfl

theorem arity_of_split (h : d.outputs = none) {n : Nat}
    (hsplit : d.attrs.lookup "num_split" = some (.int n)) (referenced : Option Nat) :
    d.arity referenced = n := by
  unfold arity
  rw [h, hsplit]
  simp

theorem arity_of_stated {n : Nat} (h : d.outputs = some n) (referenced : Option Nat) :
    d.arity referenced = n := by
  unfold arity
  rw [h]

end NodeDef

namespace Document

/-- An input of some node of the document writes the reference. -/
def Refers (doc : Document) (ref : InputRef) : Prop :=
  ∃ d ∈ doc.nodes, ∃ text ∈ d.inputs, ref.Written text.toList

/-- How many outputs a node of a document declares: as many as it says, as many as a `num_split`
that is not negative says, or as many as all its consumers together need, but at least one. -/
inductive Declares (doc : Document) (d : NodeDef) : Nat → Prop where
  | stated {n : Nat} (h : d.outputs = some n) : Declares doc d n
  | split {n : Nat} (h : d.outputs = none) (hsplit : d.attrs.lookup "num_split" = some (.int n)) :
    Declares doc d n
  | needed {greatest : Nat} (h : d.outputs = none)
      (hsplit : ∀ n : Nat, d.attrs.lookup "num_split" ≠ some (.int n))
      (hgreatest : IsGreatest {output | doc.Refers (.data d.name output)} greatest) :
    Declares doc d (greatest + 1)
  | single (h : d.outputs = none)
      (hsplit : ∀ n : Nat, d.attrs.lookup "num_split" ≠ some (.int n))
      (hnone : {output | doc.Refers (.data d.name output)} = ∅) : Declares doc d 1

variable {doc : Document} {table : References}

theorem mem_flatten_references {all : List (List InputRef)}
    (h : doc.nodes.mapM NodeDef.references = .ok all) {ref : InputRef} :
    ref ∈ all.flatten ↔ doc.Refers ref := by
  have hforall := except_mapM_eq_ok.mp h
  rw [List.mem_flatten]
  constructor
  · rintro ⟨refs, hrefs, href⟩
    obtain ⟨d, hd, h⟩ := forall₂_exists_left hforall hrefs
    obtain ⟨text, htext, hwritten⟩ := forall₂_exists_left (NodeDef.references_eq_ok.mp h) href
    exact ⟨d, hd, text, htext, hwritten⟩
  · rintro ⟨d, hd, text, htext, hwritten⟩
    obtain ⟨refs, hrefs, h⟩ := forall₂_exists_right hforall hd
    obtain ⟨other, hother, hother'⟩ := forall₂_exists_right (NodeDef.references_eq_ok.mp h) htext
    exact ⟨refs, hrefs, hwritten.unique hother' ▸ hother⟩

/-- The references of a document that can all be read, with the greatest output asked of each node.
-/
theorem references_eq_ok (h : doc.references = .ok table) :
    (∀ d ∈ doc.nodes, ∃ refs, d.references = .ok refs) ∧
    ∀ name, GreatestOf {output | doc.Refers (.data name output)} (table.get? name) := by
  obtain ⟨all, hall, h⟩ := except_bind_eq_ok.mp h
  obtain rfl := Except.ok.inj h
  constructor
  · intro d hd
    obtain ⟨refs, -, hrefs⟩ := forall₂_exists_right (except_mapM_eq_ok.mp hall) hd
    exact ⟨refs, hrefs⟩
  · intro name
    have hasked : InputRef.asked all.flatten name = {output | doc.Refers (.data name output)} := by
      ext output
      exact mem_flatten_references hall
    rw [← hasked]
    exact References.greatestOf_foldl all.flatten name

theorem exists_references
    (h : ∀ d ∈ doc.nodes, ∀ text ∈ d.inputs, ∃ ref : InputRef, ref.Written text.toList) :
    ∃ table, doc.references = .ok table := by
  have hall : ∀ d ∈ doc.nodes, ∃ refs, d.references = .ok refs := by
    intro d hd
    apply exists_except_mapM
    intro text htext
    obtain ⟨ref, href⟩ := h d hd text htext
    exact ⟨ref, InputRef.parse_eq_ok.mpr href⟩
  obtain ⟨all, hall⟩ := exists_except_mapM hall
  exact ⟨_, except_bind_eq_ok.mpr ⟨all, hall, rfl⟩⟩

theorem references_error {error : Error} (h : doc.references = .error error) :
    ∃ d ∈ doc.nodes, ∃ text ∈ d.inputs, error = .invalid (.malformedReference text) ∧
      ∀ ref : InputRef, ¬ ref.Written text.toList := by
  obtain h | ⟨_, -, h⟩ := except_bind_eq_error.mp h
  · obtain ⟨d, hd, h⟩ := except_mapM_error h
    obtain ⟨text, htext, h⟩ := except_mapM_error h
    exact ⟨d, hd, text, htext, InputRef.parse_error h⟩
  · cases h

theorem declares_arity (h : doc.references = .ok table) (d : NodeDef) :
    doc.Declares d (d.arity (table.get? d.name)) := by
  have hgreatest := (references_eq_ok h).2 d.name
  cases hout : d.outputs with
  | some n =>
    rw [NodeDef.arity_of_stated hout]
    exact .stated hout
  | none =>
    by_cases hsplit : ∃ n : Nat, d.attrs.lookup "num_split" = some (.int n)
    · obtain ⟨n, hn⟩ := hsplit
      rw [NodeDef.arity_of_split hout hn]
      exact .split hout hn
    · have hopen : ∀ n : Nat, d.attrs.lookup "num_split" ≠ some (.int n) := not_exists.mp hsplit
      rw [NodeDef.arity_of_open hout hopen]
      cases hget : table.get? d.name with
      | none =>
        rw [hget] at hgreatest
        exact .single hout hopen hgreatest
      | some greatest =>
        rw [hget] at hgreatest
        exact .needed hout hopen hgreatest

/-- The number of outputs that is declared is the one that the loader computes. -/
theorem declares_iff (h : doc.references = .ok table) {d : NodeDef} {n : Nat} :
    doc.Declares d n ↔ n = d.arity (table.get? d.name) := by
  constructor
  · intro hn
    have hgreatest := (references_eq_ok h).2 d.name
    cases hn with
    | stated h => rw [NodeDef.arity_of_stated h]
    | split h hsplit => rw [NodeDef.arity_of_split h hsplit]
    | needed h hsplit hn =>
      rw [NodeDef.arity_of_open h hsplit]
      cases hget : table.get? d.name with
      | none =>
        rw [hget] at hgreatest
        rw [show {output | doc.Refers (.data d.name output)} = ∅ from hgreatest] at hn
        exact absurd hn.1 (Set.notMem_empty _)
      | some greatest =>
        rw [hget] at hgreatest
        rw [hn.unique hgreatest]
        rfl
    | single h hsplit hnone =>
      rw [NodeDef.arity_of_open h hsplit]
      cases hget : table.get? d.name with
      | none => rfl
      | some greatest =>
        rw [hget, hnone] at hgreatest
        exact absurd hgreatest.1 (Set.notMem_empty _)
  · rintro rfl
    exact declares_arity h d

/-- A node without its own word on its outputs declares all that are asked of it. -/
theorem Declares.lt_of_open {d : NodeDef} {n output : Nat} (h : doc.Declares d n)
    (hout : d.outputs = none) (hsplit : ∀ n : Nat, d.attrs.lookup "num_split" ≠ some (.int n))
    (hrefers : doc.Refers (.data d.name output)) : output < n := by
  cases h with
  | stated h => simp [hout] at h
  | split _ h => exact absurd h (hsplit n)
  | needed _ _ hgreatest => exact Nat.lt_succ_of_le (hgreatest.2 hrefers)
  | single _ _ hnone => exact absurd (hnone ▸ hrefers : output ∈ (∅ : Set Nat)) (Set.notMem_empty _)

end Document

end GraphLowering
