import Mathlib
import GraphLowering.Proofs.WindowRuns

/-!
# Window ops in both formats

A node in one format and a node in the other, with the same numbers for the spatial axes, ask for the
same window. Both are lowered to the same op on the same channels-first image, and so they succeed
together and their results differ in the order of the axes only.

* `SameSpatial` — attributes with the same numbers for the spatial axes.
* `FormatTwins` — nodes that differ in their format only.
* `FormatTwins.requests_iff`, `FormatTwins.paddingPolicy_iff` — twins ask for the same.
* `formats_agree` — twins are lowered alike.
-/

namespace GraphLowering

open Target

/-- Two attributes, of a node with the channels last and of one with the channels first: each lists
four numbers, with the same ones for the spatial axes; or they are the same and list no four
numbers. -/
inductive SameSpatial : Option Attribute → Option Attribute → Prop
  | spatial {attr attr' : Attribute} {batch channel batch' channel' row column : Int}
    (h : attr.ints? = some (DataFormat.channelsLast.arrange batch channel row column))
    (h' : attr'.ints? = some (DataFormat.channelsFirst.arrange batch' channel' row column)) :
    SameSpatial (some attr) (some attr')
  | other {attr : Option Attribute}
    (h : ∀ values, attr.bind Attribute.ints? = some values → values.length ≠ 4) :
    SameSpatial attr attr

/-- Nodes that differ in their format only: one has the channels last and one has them first, and
the numbers for the spatial axes stand at the places of each format. -/
structure FormatTwins (last first : Context) : Prop where
  lastFormat : DataFormat.of last = .ok .channelsLast
  firstFormat : DataFormat.of first = .ok .channelsFirst
  inputs : last.node.inputs = first.node.inputs
  outputs : last.node.outputs = first.node.outputs
  padding : last.node.attr? "padding" = first.node.attr? "padding"
  strides : SameSpatial (last.node.attr? "strides") (first.node.attr? "strides")
  dilations : SameSpatial (last.node.attr? "dilations") (first.node.attr? "dilations")
  ksize : SameSpatial (last.node.attr? "ksize") (first.node.attr? "ksize")

variable {last first : Context}

theorem lists_iff_of_sameSpatial {key : String} {plane : Plane}
    (h : SameSpatial (last.node.attr? key) (first.node.attr? key)) :
    last.Lists key .channelsLast plane ↔ first.Lists key .channelsFirst plane := by
  unfold Context.Lists
  generalize last.node.attr? key = attr, first.node.attr? key = attr' at h
  cases h with
  | @spatial _ _ batch channel batch' channel' row column hlast hfirst =>
    rw [Option.bind_some, hlast, Option.bind_some, hfirst]
    simp only [DataFormat.arrange, Option.some.injEq, List.cons.injEq, and_true]
    constructor
    · rintro ⟨hpositive, _, _, rfl, rfl, rfl, rfl⟩
      exact ⟨hpositive, batch', channel', rfl, rfl, rfl, rfl⟩
    · rintro ⟨hpositive, _, _, rfl, rfl, rfl, rfl⟩
      exact ⟨hpositive, batch, channel, rfl, rfl, rfl, rfl⟩
  | other hother =>
    constructor
    · rintro ⟨-, _, _, hattr⟩
      exact absurd rfl (hother _ hattr)
    · rintro ⟨-, _, _, hattr⟩
      exact absurd rfl (hother _ hattr)

theorem SameSpatial.none_iff {attr attr' : Option Attribute} (h : SameSpatial attr attr') :
    attr = none ↔ attr' = none := by
  cases h with
  | spatial => simp
  | other => rfl

theorem paddingPolicy_eq_ok {ctx : Context} {policy : PaddingPolicy} :
    paddingPolicy ctx = .ok policy ↔
      ∃ name, (ctx.node.attr? "padding").bind Attribute.text? = some name ∧
        PaddingPolicy.ofName? name = some policy := by
  rw [paddingPolicy, except_bind_eq_ok]
  refine exists_congr fun name => and_congr Source.Node.attrOfKind_eq_ok ?_
  cases PaddingPolicy.ofName? name <;> simp [throw, throwThe, MonadExceptOf.throw]

namespace FormatTwins

theorem paddingPolicy_iff (twins : FormatTwins last first) {policy : PaddingPolicy} :
    paddingPolicy last = .ok policy ↔ paddingPolicy first = .ok policy := by
  rw [paddingPolicy_eq_ok, paddingPolicy_eq_ok, twins.padding]

theorem dilates_iff (twins : FormatTwins last first) {dilations : Plane} :
    last.Dilates .channelsLast dilations ↔ first.Dilates .channelsFirst dilations := by
  rw [Context.Dilates, Context.Dilates, lists_iff_of_sameSpatial twins.dilations,
    twins.dilations.none_iff]

end FormatTwins

/-- What a node asks for, another one asks for too if it lists the same for the spatial axes. -/
theorem Requests.transfer {ctx ctx' : Context} {format format' : DataFormat} {image : ImageType}
    {kind : OpKind} {filter : Option TensorType} {request : WindowRequest}
    (h : Requests ctx format image kind filter request)
    (hinputs : ctx.node.inputs = ctx'.node.inputs)
    (hwindow : ∀ plane, ctx.Lists "ksize" format plane → ctx'.Lists "ksize" format' plane)
    (hstrides : ∀ plane, ctx.Lists "strides" format plane → ctx'.Lists "strides" format' plane)
    (hdilates : ∀ plane, ctx.Dilates format plane → ctx'.Dilates format' plane) :
    Requests ctx' format' image kind filter request := by
  cases h with
  | pool inputs hksize hstride =>
    exact .pool (hinputs ▸ inputs) (hwindow _ hksize) (hstrides _ hstride)
  | convolve inputs hstride hdilations =>
    exact .convolve (hinputs ▸ inputs) (hstrides _ hstride) (hdilates _ hdilations)

/-- Twins ask for the same window. -/
theorem FormatTwins.requests_iff (twins : FormatTwins last first) {image : ImageType}
    {kind : OpKind} {filter : Option TensorType} {request : WindowRequest} :
    Requests last .channelsLast image kind filter request ↔
      Requests first .channelsFirst image kind filter request :=
  ⟨fun h => h.transfer twins.inputs (fun _ => (lists_iff_of_sameSpatial twins.ksize).mp)
      (fun _ => (lists_iff_of_sameSpatial twins.strides).mp) fun _ => twins.dilates_iff.mp,
    fun h => h.transfer twins.inputs.symm (fun _ => (lists_iff_of_sameSpatial twins.ksize).mpr)
      (fun _ => (lists_iff_of_sameSpatial twins.strides).mpr) fun _ => twins.dilates_iff.mpr⟩

/-- The window ops that a kind is lowered to. -/
inductive WindowOp : OpKind → Op → Prop
  | maxPool (w : PoolWindow) : WindowOp (.pool false) (.maxPool w)
  | avgPool (w : PoolWindow) : WindowOp (.pool true) (.avgPool w false)
  | convolution (w : ConvolutionWindow) : WindowOp .convolve (.convolution w)

theorem Requests.windowOp {ctx : Context} {format : DataFormat} {image : ImageType}
    {kind : OpKind} {filter : Option TensorType} {request : WindowRequest}
    (h : Requests ctx format image kind filter request) (padding : Padding) :
    WindowOp kind (request.op padding) := by
  cases h with
  | @pool average =>
    cases average with
    | false => exact .maxPool _
    | true => exact .avgPool _
  | convolve => exact .convolution _

/-- If a node is lowered and another one has the same policy and asks for the same window of the same
image, then both are lowered to the same op. -/
theorem lowered_alike {ctx ctx' : Context} {format format' : DataFormat} {policy : PaddingPolicy}
    {g g' h : Graph} {image : ImageType} {kind : OpKind} {filter : Option TensorType}
    {ws ws' : List Wire} {request : WindowRequest} {outputs : Outputs}
    (hformat : DataFormat.of ctx = .ok format) (hformat' : DataFormat.of ctx' = .ok format')
    (hpolicy : paddingPolicy ctx = .ok policy) (hpolicy' : paddingPolicy ctx' = .ok policy)
    (hrequest : Requests ctx format image kind filter request)
    (hrequest' : Requests ctx' format' image kind filter request)
    (hslots : ctx.node.outputs = ctx'.node.outputs)
    (hoperands : WindowOperands g format image kind filter ws)
    (hoperands' : WindowOperands g' format' image kind filter ws')
    (hrun : kind.rule ctx ws g = .ok outputs h) :
    ∃ op result outputs' h', WindowOp kind op ∧ kind.rule ctx' ws' g' = .ok outputs' h' ∧
      LowersWindow h format image result op ws outputs ∧
      LowersWindow h' format' image result op ws' outputs' := by
  obtain ⟨hpos, below, above, positions, hplane⟩ :=
    hrequest.planeRun hformat hpolicy hoperands hrun
  obtain ⟨outputs₁, h₁, hrun₁, hlowers⟩ := hrequest.run hformat hpolicy hoperands hpos hplane
  obtain ⟨rfl, rfl⟩ := EStateM.Result.ok.inj (hrun.symm.trans hrun₁)
  obtain ⟨outputs', h', hrun', hlowers'⟩ :=
    hrequest'.run hformat' hpolicy' hoperands' (hslots ▸ hpos) hplane
  exact ⟨_, _, outputs', h', hrequest.windowOp _, hrun', hlowers, hlowers'⟩

section Twins

variable {g g' h : Graph} {image : ImageType} {kind : OpKind} {filter : Option TensorType}
  {ws ws' : List Wire} {outputs : Outputs}

theorem FormatTwins.lowered_first (twins : FormatTwins last first)
    (hlast : WindowOperands g .channelsLast image kind filter ws)
    (hfirst : WindowOperands g' .channelsFirst image kind filter ws')
    (hrun : kind.rule last ws g = .ok outputs h) :
    ∃ op result outputs' h', WindowOp kind op ∧ kind.rule first ws' g' = .ok outputs' h' ∧
      LowersWindow h .channelsLast image result op ws outputs ∧
      LowersWindow h' .channelsFirst image result op ws' outputs' := by
  obtain ⟨policy, request, hpolicy, hrequest⟩ := Requests.of_rule twins.lastFormat hlast hrun
  exact lowered_alike twins.lastFormat twins.firstFormat hpolicy
    (twins.paddingPolicy_iff.mp hpolicy) hrequest (twins.requests_iff.mp hrequest) twins.outputs
    hlast hfirst hrun

theorem FormatTwins.lowered_last (twins : FormatTwins last first)
    (hlast : WindowOperands g .channelsLast image kind filter ws)
    (hfirst : WindowOperands g' .channelsFirst image kind filter ws')
    (hrun : kind.rule first ws' g' = .ok outputs h) :
    ∃ outputs' h', kind.rule last ws g = .ok outputs' h' := by
  obtain ⟨policy, request, hpolicy, hrequest⟩ := Requests.of_rule twins.firstFormat hfirst hrun
  obtain ⟨_, _, outputs', h', -, hrun', -⟩ := lowered_alike twins.firstFormat twins.lastFormat
    hpolicy (twins.paddingPolicy_iff.mpr hpolicy) hrequest (twins.requests_iff.mpr hrequest)
    twins.outputs.symm hfirst hlast hrun
  exact ⟨outputs', h', hrun'⟩

end Twins

/-- **Both formats are lowered alike.** Take a convolution or a pooling op with the channels last and
its twin with the channels first, on images of the same sizes and the same filters. Either both are
lowered or none is. Both then emit the same window op with the same channels-first type: it reads the
image with the channels first and its result is brought back to the format of the node. Elements keep
their batch, channel, row and column on the way in and on the way out, and the two results have the
same shape up to the order of the axes. The orders of axes that take one format to the other are
inverse to each other. -/
theorem formats_agree {last first : Context} (twins : FormatTwins last first) {g g' : Graph}
    {image : ImageType} {kind : OpKind} {filter : Option TensorType} {ws ws' : List Wire}
    (hlast : WindowOperands g .channelsLast image kind filter ws)
    (hfirst : WindowOperands g' .channelsFirst image kind filter ws') :
    ((∃ outputs h, kind.rule last ws g = .ok outputs h) ↔
      ∃ outputs h, kind.rule first ws' g' = .ok outputs h) ∧
    (∀ outputs h outputs' h', kind.rule last ws g = .ok outputs h →
      kind.rule first ws' g' = .ok outputs' h' →
      ∃ op result, WindowOp kind op ∧
        LowersWindow h .channelsLast image result op ws outputs ∧
        LowersWindow h' .channelsFirst image result op ws' outputs' ∧
        (result.inFormat .channelsLast).shape =
          permuted [0, 2, 3, 1] (result.inFormat .channelsFirst).shape) ∧
    ∀ shape : Shape, shape.length = 4 →
      permuted [0, 2, 3, 1] (permuted [0, 3, 1, 2] shape) = shape ∧
        permuted [0, 3, 1, 2] (permuted [0, 2, 3, 1] shape) = shape := by
  refine ⟨⟨?_, ?_⟩, ?_, ?_⟩
  · rintro ⟨outputs, h, hrun⟩
    obtain ⟨_, _, outputs', h', -, hrun', -⟩ := twins.lowered_first hlast hfirst hrun
    exact ⟨outputs', h', hrun'⟩
  · rintro ⟨outputs, h, hrun⟩
    exact twins.lowered_last hlast hfirst hrun
  · intro outputs h outputs' h' hrun hrun'
    obtain ⟨op, result, outputs₁, h₁, hop, hrun₁, hlowers, hlowers'⟩ :=
      twins.lowered_first hlast hfirst hrun
    obtain ⟨rfl, rfl⟩ := EStateM.Result.ok.inj (hrun'.symm.trans hrun₁)
    exact ⟨op, result, hop, hlowers, hlowers', rfl⟩
  · intro shape hshape
    obtain ⟨a, b, c, d, rfl⟩ := List.length_eq_four.mp hshape
    exact ⟨rfl, rfl⟩

/-- The node of a mean over windows, on axes padded under the policy `same`. -/
def averagePool (format : String) (window strides : List Int) : Context :=
  ⟨{ name := "pool", op := "AvgPool", index := 1, inputs := 1,
     attrs := ⟨[("data_format", .text format), ("ksize", .ints window),
       ("strides", .ints strides), ("padding", .text "SAME")]⟩ }, {}, []⟩

/-- An image with two channels, four rows and five columns. -/
def smallImage : ImageType := ⟨.f32, 1, 2, ⟨4, 5⟩⟩

def smallArena (format : DataFormat) : Graph := .ofParameters [smallImage.inFormat format]

/-- Twins that are lowered: they pad the columns only, and leave two rows. -/
theorem averagePool_twins :
    ∃ outputs h outputs' h' op result,
      (OpKind.pool true).rule (averagePool "NHWC" [1, 2, 3, 1] [1, 2, 1, 1]) [0]
        (smallArena .channelsLast) = .ok outputs h ∧
      (OpKind.pool true).rule (averagePool "NCHW" [1, 1, 2, 3] [1, 1, 2, 1]) [0]
        (smallArena .channelsFirst) = .ok outputs' h' ∧
      LowersWindow h .channelsLast smallImage result op [0] outputs ∧
      LowersWindow h' .channelsFirst smallImage result op [0] outputs' := by
  have twins : FormatTwins (averagePool "NHWC" [1, 2, 3, 1] [1, 2, 1, 1])
      (averagePool "NCHW" [1, 1, 2, 3] [1, 1, 2, 1]) :=
    ⟨rfl, rfl, rfl, rfl, rfl, .spatial rfl rfl, .other nofun, .spatial rfl rfl⟩
  have hlast : WindowOperands (smallArena .channelsLast) .channelsLast smallImage (.pool true) none
      [0] := .pool rfl
  have hfirst : WindowOperands (smallArena .channelsFirst) .channelsFirst smallImage (.pool true)
      none [0] := .pool rfl
  obtain ⟨hiff, hagree, -⟩ := formats_agree twins hlast hfirst
  obtain ⟨outputs, h, hrun⟩ : ∃ outputs h, (OpKind.pool true).rule
      (averagePool "NHWC" [1, 2, 3, 1] [1, 2, 1, 1]) [0] (smallArena .channelsLast) =
        .ok outputs h := ⟨_, _, rfl⟩
  obtain ⟨outputs', h', hrun'⟩ := hiff.mp ⟨outputs, h, hrun⟩
  obtain ⟨op, result, -, hlowers, hlowers', -⟩ := hagree outputs h outputs' h' hrun hrun'
  exact ⟨outputs, h, outputs', h', op, result, hrun, hrun', hlowers, hlowers'⟩

end GraphLowering
