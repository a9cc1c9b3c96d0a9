import Mathlib
import GraphLowering.Rule.Window
import GraphLowering.Proofs.Elements

/-!
# Layouts of images

An image has a batch, channels, rows and columns, and its format says in which order its axes hold
them. Window ops read images with the channels first, so an image in the other format is permuted on
its way in and its result on its way out. Nothing but the order of the axes changes: an element has
the same batch, channel, row and column in both images.

* `DataFormat.arrange` — a batch, a channel, a row and a column in the order of a format.
* `ImageType` — the sizes of an image, and the type of the tensor that holds it in a format.
* `DataFormat.orderTo` — the order of axes that takes images of one format to another.
* `transposed_run` — the arena in which the axes of a wire have been permuted.
* `Relaid` — a wire that holds an image of one format in another one.
* `toChannelsFirst_run`, `ofChannelsFirst_run` — the moves of the window rules always succeed.
-/

namespace GraphLowering

open Target

/-! ### Permuted axes -/

theorem perm_range_of_isPermutation {order : List Nat} {rank : Nat}
    (h : isPermutation order rank = true) : order.Perm (List.range rank) := by
  obtain ⟨hlength, hnodup, hlt⟩ := isPermutation_iff.mp h
  have hsubset : order ⊆ List.range rank := fun axis haxis => List.mem_range.mpr (hlt axis haxis)
  refine (List.subperm_of_subset hnodup hsubset).perm_of_length_le ?_
  rw [List.length_range, hlength]

theorem elements_permuted {order : List Nat} {shape : Shape}
    (h : isPermutation order shape.length = true) :
    (permuted order shape).elements = shape.elements := by
  have hperm : (permuted order shape).Perm shape := by
    have hmap := (perm_range_of_isPermutation h).map fun axis => shape.getD axis 0
    rwa [getD_range] at hmap
  calc (permuted order shape).elements = List.prod (permuted order shape) :=
        List.prod_eq_foldr.symm
    _ = List.prod shape := hperm.prod_eq
    _ = shape.elements := List.prod_eq_foldr

theorem mapM_getElem?_permuted {order : List Nat} {shape : Shape}
    (h : ∀ axis ∈ order, axis < shape.length) :
    (order.mapM fun axis => shape[axis]?) = some (permuted order shape) := by
  induction order with
  | nil => rfl
  | cons axis order ih =>
    obtain ⟨haxis, hrest⟩ := List.forall_mem_cons.mp h
    have hget : shape[axis]? = some (shape.getD axis 0) := by
      rw [List.getElem?_eq_getElem haxis, List.getD_eq_getElem _ _ haxis]
    rw [List.mapM_cons, hget, ih hrest]
    rfl

variable {g : Graph} {x : Wire}

/-- Permuting the axes of a wire appends one node and never fails. -/
theorem transposed_run (ctx : Context) {type : TensorType} {order : List Nat}
    (hx : g.type? x = some type) (horder : isPermutation order type.shape.length = true) :
    transposed ctx x order g = .ok g.size
      (g.push (.reshape order (permuted order type.shape)) [x]
        ⟨type.element, permuted order type.shape⟩) := by
  have hlt : ∀ axis ∈ order, axis < type.shape.length := fun axis haxis =>
    List.mem_range.mp ((perm_range_of_isPermutation horder).mem_iff.mp haxis)
  rw [transposed, Step.bind_of_ok (shapeOf_of_type? hx), mapM_getElem?_permuted hlt]
  exact emit_of_type hx (infer_reshape horder (elements_permuted horder).symm)

/-! ### Images -/

namespace DataFormat

/-- Four numbers of an image in the order of a format: its sizes, an index into it, or a number for
each of its axes. -/
def arrange {α : Type} : DataFormat → (batch channel row column : α) → List α
  | channelsLast, batch, channel, row, column => [batch, row, column, channel]
  | channelsFirst, batch, channel, row, column => [batch, channel, row, column]

/-- The order of axes that takes images of one format to another. -/
def orderTo : (source target : DataFormat) → List Nat
  | channelsLast, channelsFirst => [0, 3, 1, 2]
  | channelsFirst, channelsLast => [0, 2, 3, 1]
  | _, _ => [0, 1, 2, 3]

variable (source target : DataFormat) (batch channel row column : Nat)

theorem length_arrange : (source.arrange batch channel row column).length = 4 := by
  cases source <;> rfl

theorem isPermutation_orderTo : isPermutation (source.orderTo target) 4 = true := by
  cases source <;> cases target <;> decide

theorem permuted_orderTo :
    permuted (source.orderTo target) (source.arrange batch channel row column) =
      target.arrange batch channel row column := by
  cases source <;> cases target <;> rfl

theorem unpermuted_orderTo :
    unpermuted (source.orderTo target) (target.arrange batch channel row column) =
      source.arrange batch channel row column := by
  cases source <;> cases target <;> rfl

end DataFormat

/-- A number for each of the two spatial axes: along the columns, and along the rows. -/
structure Plane where
  vertical : Nat
  horizontal : Nat

/-- The sizes of an image with the type of its elements. -/
structure ImageType where
  element : ElementType
  batch : Nat
  channels : Nat
  plane : Plane

/-- The type of the tensor that holds an image in a format. -/
def ImageType.inFormat (image : ImageType) (format : DataFormat) : TensorType :=
  ⟨image.element,
    format.arrange image.batch image.channels image.plane.vertical image.plane.horizontal⟩

/-- A wire that holds, in the format `target`, the image that wire `x` holds in the format `source`:
`x` itself, or a node that permutes its axes. -/
inductive Relaid (g : Graph) (x : Wire) (image : ImageType) (source target : DataFormat) :
    Wire → Graph → Prop
  | kept (h : source = target) : Relaid g x image source target x g
  | moved (h : source ≠ target) :
    Relaid g x image source target g.size
      (g.push (.reshape (source.orderTo target) (image.inFormat target).shape) [x]
        (image.inFormat target))

theorem transposed_relaid (ctx : Context) {image : ImageType} (source target : DataFormat)
    (h : source ≠ target) (hx : g.type? x = some (image.inFormat source)) :
    ∃ y g', transposed ctx x (source.orderTo target) g = .ok y g' ∧
      Relaid g x image source target y g' := by
  have horder : isPermutation (source.orderTo target) (image.inFormat source).shape.length := by
    rw [ImageType.inFormat, DataFormat.length_arrange]
    exact source.isPermutation_orderTo target
  have hshape : permuted (source.orderTo target) (image.inFormat source).shape =
      (image.inFormat target).shape :=
    source.permuted_orderTo target ..
  refine ⟨_, _, transposed_run ctx hx horder, ?_⟩
  rw [hshape]
  exact .moved h

theorem toChannelsFirst_run (ctx : Context) {image : ImageType} (format : DataFormat)
    (hx : g.type? x = some (image.inFormat format)) :
    ∃ y g', toChannelsFirst ctx x format g = .ok y g' ∧
      Relaid g x image format .channelsFirst y g' := by
  cases format with
  | channelsLast => exact transposed_relaid ctx .channelsLast .channelsFirst nofun hx
  | channelsFirst => exact ⟨x, g, rfl, .kept rfl⟩

theorem ofChannelsFirst_run (ctx : Context) {image : ImageType} (format : DataFormat)
    (hx : g.type? x = some (image.inFormat .channelsFirst)) :
    ∃ y g', ofChannelsFirst ctx x format g = .ok y g' ∧
      Relaid g x image .channelsFirst format y g' := by
  cases format with
  | channelsLast => exact transposed_relaid ctx .channelsFirst .channelsLast nofun hx
  | channelsFirst => exact ⟨x, g, rfl, .kept rfl⟩

/-- In an arena, wire `y` is wire `x` if the formats are the same, and otherwise a node that takes
the image of wire `x` from one format to the other. -/
def Target.Graph.Relays (h : Graph) (x : Wire) (image : ImageType) (source target : DataFormat)
    (y : Wire) : Prop :=
  if source = target then y = x
  else h.nodes[y]? = some ⟨y, .reshape (source.orderTo target) (image.inFormat target).shape, [x],
    image.inFormat target⟩

namespace Relaid

variable {g' h : Graph} {y : Wire} {image : ImageType} {source target : DataFormat}

theorem le (hy : Relaid g x image source target y g') : g ≤ g' := by
  cases hy with
  | kept => exact le_rfl
  | moved => exact g.le_push _ _ _

theorem type? (hy : Relaid g x image source target y g')
    (hx : g.type? x = some (image.inFormat source)) :
    g'.type? y = some (image.inFormat target) := by
  cases hy with
  | kept h => exact h ▸ hx
  | moved => exact g.type?_push_self _ _ _

theorem relays (hy : Relaid g x image source target y g') (hle : g' ≤ h) :
    h.Relays x image source target y := by
  cases hy with
  | kept heq => exact (if_pos heq).mpr rfl
  | moved hne => exact (if_neg hne).mpr (hle _ _ (g.node_push_self _ _ _))

/-- Elements keep their batch, channel, row and column. -/
theorem element {α : Type} {given : Wire → List Nat → α} (hy : Relaid g x image source target y g')
    (hx : g.type? x = some (image.inFormat source)) (hle : g' ≤ h)
    {batch channel row column : Nat} (hbatch : batch < image.batch)
    (hchannel : channel < image.channels) (hrow : row < image.plane.vertical)
    (hcolumn : column < image.plane.horizontal) :
    h.element given y (target.arrange batch channel row column) =
      h.element given x (source.arrange batch channel row column) := by
  cases hy with
  | kept h => rw [h]
  | moved =>
    have hshape : (image.inFormat target).shape =
        permuted (source.orderTo target) (image.inFormat source).shape :=
      (source.permuted_orderTo target ..).symm
    have hindex : (permuted (source.orderTo target) (image.inFormat source).shape).IsIndex
        (target.arrange batch channel row column) := by
      rw [← hshape]
      cases target <;> simp [Shape.IsIndex, ImageType.inFormat, DataFormat.arrange, *]
    refine Graph.element_of_pushed hx hle ?_
    rw [hshape, Op.origin?_reshape_permuted _ _ hindex, source.unpermuted_orderTo target]

end Relaid

end GraphLowering
