import Mathlib
import GraphLowering.Rule.Table
import GraphLowering.Proofs.Simulation

/-!
# What lowering rules read

A rule learns of its node only through a few functions: the attributes, the declared outputs, the
number of inputs, and the values on the input slots that its kind declares. Two contexts that agree
in these are the same to it. Its failures name the node and nothing else of the context, or come
from reading a value.

* `Context.Agree` — two contexts that are the same to a rule that reads the values on given slots.
* `Context.Fails` — the pairs of failures that rules end in, in contexts that agree.
* `Context.Agree.attrOfKind?_paired`, … — each function that reads the context gives the same in
  both.
-/

namespace GraphLowering

open Target

/-- Two contexts that are the same to a rule that reads the values on `slots` and on no other slots.
-/
structure Context.Agree (slots : Nat → Prop) (ctx ctx' : Context) : Prop where
  attr : ∀ key, ctx.node.attr? key = ctx'.node.attr? key
  outputs : ctx.node.outputs = ctx'.node.outputs
  inputs : ctx.node.inputs = ctx'.node.inputs
  static : ∀ slot, slots slot →
    Paired (fun _ _ => True) Eq (ctx.staticInput slot) (ctx'.staticInput slot)

/-- How rules fail in two contexts. A refusal, a missing attribute, an attribute of another kind and
a wrong number of inputs name the node. Other failures are plain, or come from reading the value on
one of the `slots`. -/
inductive Context.Fails (slots : Nat → Prop) (ctx ctx' : Context) : Error → Error → Prop where
  | refuse (cause : RuleFault) (h : ∀ slot index, cause ≠ .valueNotSupplied slot index) :
    Fails slots ctx ctx' (ctx.refuse cause) (ctx'.refuse cause)
  | missing (key : String) :
    Fails slots ctx ctx' (.missingAttribute ctx.node.name key)
      (.missingAttribute ctx'.node.name key)
  | kind (key got expected : String) :
    Fails slots ctx ctx' (.invalid (.attributeKind ctx.node.name key got expected))
      (.invalid (.attributeKind ctx'.node.name key got expected))
  | inputCount (expected got : Nat) :
    Fails slots ctx ctx' (.invalid (.inputCount ctx.node.name expected got))
      (.invalid (.inputCount ctx'.node.name expected got))
  | inputCountAtLeast (least got : Nat) :
    Fails slots ctx ctx' (.invalid (.inputCountAtLeast ctx.node.name least got))
      (.invalid (.inputCountAtLeast ctx'.node.name least got))
  | plain {e : Error} (h : e.Plain) : Fails slots ctx ctx' e e
  | static {e e' : Error} (slot : Nat) (h : slots slot) (he : ctx.staticInput slot = .error e)
      (he' : ctx'.staticInput slot = .error e') : Fails slots ctx ctx' e e'

namespace Context

variable {slots : Nat → Prop} {ctx ctx' : Context}

theorem fails_of_plain (e : Error) (h : e.Plain) : Fails slots ctx ctx' e e := .plain h

/-- A refusal for any cause but a value that was not supplied. -/
theorem refused {α β : Type} {post : α → β → Prop} {cause : RuleFault}
    (h : ∀ slot index, cause ≠ .valueNotSupplied slot index) :
    Paired (Fails slots ctx ctx') post (.error (ctx.refuse cause)) (.error (ctx'.refuse cause)) :=
  .error (.refuse cause h)

namespace Agree

variable (agree : ctx.Agree slots ctx')
include agree

theorem attrOfKind?_paired {α : Type} (key expected : String) (read : Attribute → Option α) :
    Paired (Fails slots ctx ctx') Eq (ctx.node.attrOfKind? key expected read)
      (ctx'.node.attrOfKind? key expected read) := by
  unfold Source.Node.attrOfKind?
  rw [← agree.attr key]
  split
  · exact .ok rfl
  · split
    · exact .ok rfl
    · exact .error (.kind key _ expected)

theorem attrOfKind_paired {α : Type} (key expected : String) (read : Attribute → Option α) :
    Paired (Fails slots ctx ctx') Eq (ctx.node.attrOfKind key expected read)
      (ctx'.node.attrOfKind key expected read) := by
  unfold Source.Node.attrOfKind
  have h := agree.attrOfKind?_paired key expected read
  generalize ctx.node.attrOfKind? key expected read = x at h
  generalize ctx'.node.attrOfKind? key expected read = x' at h
  cases h with
  | error h => exact .error h
  | ok h =>
    subst h
    split
    · exact .ok rfl
    · exact .error (.missing key)
    · rename_i heq
      cases heq

theorem boolOr_paired (key : String) (default : Bool) :
    Paired (Fails slots ctx ctx') Eq (ctx.node.boolOr key default) (ctx'.node.boolOr key default) :=
  (agree.attrOfKind?_paired key _ _).map fun _ _ hab => by rw [hab]

theorem textOr_paired (key default : String) :
    Paired (Fails slots ctx ctx') Eq (ctx.node.textOr key default) (ctx'.node.textOr key default) :=
  (agree.attrOfKind?_paired key _ _).map fun _ _ hab => by rw [hab]

theorem needInputs_paired (count : Nat) :
    Paired (Fails slots ctx ctx') Eq (ctx.needInputs count) (ctx'.needInputs count) := by
  unfold needInputs
  rw [← agree.inputs]
  split
  · exact .ok rfl
  · exact .error (.inputCount count _)

theorem needInputsAtLeast_paired (least : Nat) :
    Paired (Fails slots ctx ctx') Eq (ctx.needInputsAtLeast least)
      (ctx'.needInputsAtLeast least) := by
  unfold needInputsAtLeast
  rw [← agree.inputs]
  split
  · exact .ok rfl
  · exact .error (.inputCountAtLeast least _)

omit agree in
theorem axis_paired (axis : Int) (rank : Nat) :
    Paired (Fails slots ctx ctx') Eq (ctx.axis axis rank) (ctx'.axis axis rank) := by
  unfold Context.axis
  generalize (if axis < 0 then axis + rank else axis) = place
  dsimp only
  split
  · exact .ok rfl
  · exact refused nofun

theorem staticInput_paired {slot : Nat} (hslot : slots slot) :
    Paired (Fails slots ctx ctx') Eq (ctx.staticInput slot) (ctx'.staticInput slot) := by
  have h := agree.static slot hslot
  cases hx : ctx.staticInput slot with
  | ok value =>
    cases hx' : ctx'.staticInput slot with
    | ok value' =>
      rw [hx, hx'] at h
      cases h with
      | ok h => exact .ok h
    | error e' =>
      rw [hx, hx'] at h
      cases h
  | error e =>
    cases hx' : ctx'.staticInput slot with
    | ok value' =>
      rw [hx, hx'] at h
      cases h
    | error e' => exact .error (.static slot hslot hx hx')

theorem staticInts_paired {slot : Nat} (hslot : slots slot) :
    Paired (Fails slots ctx ctx') Eq (ctx.staticInts slot) (ctx'.staticInts slot) := by
  refine (agree.staticInput_paired hslot).bind_eq fun value => ?_
  split
  · exact .ok rfl
  · exact refused nofun

theorem axisValue_paired {slot : Nat} (hslot : slots slot) :
    Paired (Fails slots ctx ctx') Eq (axisValue ctx slot) (axisValue ctx' slot) := by
  refine (agree.staticInts_paired hslot).bind_eq fun values => ?_
  split
  · exact .ok rfl
  · exact refused nofun

theorem reductionAxes_paired (hslot : slots 1) (rank : Nat) :
    Paired (Fails slots ctx ctx') Eq (reductionAxes ctx rank) (reductionAxes ctx' rank) := by
  refine (agree.staticInts_paired hslot).bind_eq fun values => ?_
  exact (Paired.mapM_eq fun a => axis_paired a rank).bind_eq fun axes => .ok rfl

/-! ### Reading shapes and windows -/

omit agree in
theorem knownElements_paired (dims rest : List Int) (unknown : Bool) (known : Nat) :
    Paired (Fails slots ctx ctx') Eq (knownElements ctx dims rest unknown known)
      (knownElements ctx' dims rest unknown known) := by
  induction rest generalizing unknown known with
  | nil => exact .ok rfl
  | cons d rest ih =>
    unfold knownElements
    split
    · split
      · exact refused nofun
      · exact ih true known
    · split
      · exact refused nofun
      · exact ih unknown _

omit agree in
theorem inferredSize_paired (dims : List Int) (elements : Nat) (unknown : Bool) (known : Nat) :
    Paired (Fails slots ctx ctx') Eq (inferredSize ctx dims elements unknown known)
      (inferredSize ctx' dims elements unknown known) := by
  unfold inferredSize
  split
  · exact .ok rfl
  · split
    · exact refused nofun
    · refine (remainder_paired fails_of_plain elements known).bind_eq fun left => ?_
      split
      · exact refused nofun
      · exact quotient_paired fails_of_plain elements known

omit agree in
theorem inferDims_paired (dims : List Int) (elements : Nat) :
    Paired (Fails slots ctx ctx') Eq (inferDims ctx dims elements)
      (inferDims ctx' dims elements) := by
  refine (knownElements_paired dims dims false 1).bind_eq fun (unknown, known) => ?_
  refine (inferredSize_paired dims elements unknown known).bind_eq fun size => ?_
  dsimp only
  split
  · exact refused nofun
  · exact .ok rfl

omit agree in
theorem squeezedAxes_paired (requested : List Int) (shape : Shape) :
    Paired (Fails slots ctx ctx') Eq (Rule.squeezedAxes ctx requested shape)
      (Rule.squeezedAxes ctx' requested shape) := by
  unfold Rule.squeezedAxes
  split
  · exact .ok rfl
  · refine Paired.mapM_eq fun a => ?_
    refine (axis_paired a shape.length).bind_eq fun axis => ?_
    refine (entryAt_paired fails_of_plain shape axis).bind_eq fun size => ?_
    dsimp only
    split
    · exact refused nofun
    · exact .ok rfl

theorem dataFormat_paired :
    Paired (Fails slots ctx ctx') Eq (DataFormat.of ctx) (DataFormat.of ctx') := by
  refine (agree.textOr_paired "data_format" "NHWC").bind_eq fun name => ?_
  split
  · exact .ok rfl
  · exact .ok rfl
  · exact refused nofun

theorem spatialEntries_paired (key : String) (format : DataFormat) :
    Paired (Fails slots ctx ctx') Eq (spatialEntries ctx key format)
      (spatialEntries ctx' key format) := by
  refine (agree.attrOfKind_paired key _ _).bind_eq fun values => ?_
  dsimp only
  split
  · exact refused nofun
  · refine Paired.mapM_eq fun axis => ?_
    refine (entryAt_paired fails_of_plain values axis).bind_eq fun value => ?_
    split
    · exact refused nofun
    · exact .ok rfl

theorem paddingPolicy_paired :
    Paired (Fails slots ctx ctx') Eq (paddingPolicy ctx) (paddingPolicy ctx') := by
  refine (agree.attrOfKind_paired "padding" _ _).bind_eq fun name => ?_
  split
  · exact .ok rfl
  · exact refused nofun

end Agree

end Context

/-! ### Computations that read no context -/

section Plain

variable {fails : Error → Error → Prop} (hplain : ∀ e, e.Plain → fails e e)
include hplain

theorem element_paired (type : DataType) : Paired fails Eq type.element type.element := by
  unfold DataType.element
  split
  · exact .ok rfl
  · exact .error (hplain _ (.invalid _))

theorem entriesFrom_paired {α : Type} (xs : List α) (i : Nat) :
    Paired fails Eq (entriesFrom xs i) (entriesFrom xs i) := by
  unfold entriesFrom
  split
  · exact .ok rfl
  · exact .error (hplain _ (.internal _))

theorem channelAxis_paired (format : DataFormat) (rank : Nat) :
    Paired fails Eq (format.channelAxis rank) (format.channelAxis rank) := by
  cases format with
  | channelsLast => exact minus_paired hplain rank 1
  | channelsFirst => exact .ok rfl

theorem elementsAlong_paired (axes : List Nat) (shape : Shape) :
    Paired fails Eq (elementsAlong axes shape) (elementsAlong axes shape) :=
  (Paired.mapM_eq fun axis => entryAt_paired hplain shape axis).bind_eq fun _ => .ok rfl

theorem sameAxis_paired (image kernel stride : Nat) :
    Paired fails Eq (sameAxis image kernel stride) (sameAxis image kernel stride) := by
  unfold sameAxis
  dsimp only
  split
  · exact .error (hplain _ (.internal _))
  · split
    · exact .ok rfl
    · exact .error (hplain _ (.internal _))

theorem paddingMake_paired (policy : PaddingPolicy) (image kernel strides : List Nat) :
    Paired fails Eq (Padding.make policy image kernel strides)
      (Padding.make policy image kernel strides) := by
  unfold Padding.make
  dsimp only
  split
  · exact .error (hplain _ (.invalid _))
  · split
    · exact .error (hplain _ (.invalid _))
    · split
      · exact .ok rfl
      · refine Paired.bind_eq (Paired.mapM_eq fun d => ?_) fun axes => .ok rfl
        refine (entryAt_paired hplain image d).bind_eq fun size => ?_
        refine (entryAt_paired hplain kernel d).bind_eq fun extent => ?_
        refine (entryAt_paired hplain strides d).bind_eq fun stride => ?_
        exact sameAxis_paired hplain size extent stride

theorem paddingMakeDilated_paired (policy : PaddingPolicy)
    (image kernel strides dilations : List Nat) :
    Paired fails Eq (Padding.makeDilated policy image kernel strides dilations)
      (Padding.makeDilated policy image kernel strides dilations) := by
  unfold Padding.makeDilated
  split
  · exact .error (hplain _ (.invalid _))
  · exact paddingMake_paired hplain policy image _ strides

end Plain

end GraphLowering
