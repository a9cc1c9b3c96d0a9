import Mathlib
import GraphLowering.Proofs.AxisNumbers
import GraphLowering.Proofs.Stretching
import GraphLowering.Proofs.WindowRuns

/-!
# Targets of a reshape

A reshape asks for a list of dimensions, one of which may be left open as `-1`. The others are
multiplied from the left, and every product on the way has to be a 64-bit size. The open dimension
gets what the others leave of the elements, which has to come out even; without one, the product has
to be the number of elements. A list that passes is never refused by the node that is then appended.

* `givenProduct`, `filledDims` — the product of the given dimensions, and the shape in which the open
  one has been filled in.
* `Reshapes` — the lists that a tensor with so many elements can be read as.
* `knownElements_eq_ok`, `inferredSize_eq_ok` — what the two halves of the inference accept.
* `inferDims_eq_ok` — the inference accepts these lists, and gives their shape.
* `reshape_target_exact` — when a reshape is lowered, and to which shape.
-/

namespace GraphLowering

open Target

/-- The product of the dimensions that are given. -/
def givenProduct (dims : List Int) : Int := (dims.filter (· ≠ -1)).prod

/-- The shape in which an open dimension has the given size. -/
def filledDims (dims : List Int) (size : Nat) : Shape :=
  dims.map fun d => if d = -1 then size else d.toNat

@[simp] theorem givenProduct_nil : givenProduct [] = 1 := rfl

@[simp] theorem givenProduct_open (dims : List Int) :
    givenProduct (-1 :: dims) = givenProduct dims := by
  simp [givenProduct]

theorem givenProduct_cons {d : Int} (hd : d ≠ -1) (dims : List Int) :
    givenProduct (d :: dims) = d * givenProduct dims := by
  simp [givenProduct, hd]

/-- A tensor with so many elements can be read as the dimensions: at most one of them is open and none
of the others is negative, all products from the left are 64-bit sizes, and the elements come out
even. -/
structure Reshapes (dims : List Int) (elements : Nat) : Prop where
  oneOpen : dims.count (-1) ≤ 1
  nonneg : ∀ d ∈ dims, d ≠ -1 → 0 ≤ d
  products : ∀ k, givenProduct (dims.take k) < sizeLimit
  even : -1 ∉ dims ∧ givenProduct dims = elements ∨
    -1 ∈ dims ∧ 0 < givenProduct dims ∧ givenProduct dims ∣ elements

/-! ### The product of the given dimensions -/

/-- The dimensions from some point on pass, where `known` is the product so far and `unknown` says
whether an open dimension has been met. -/
structure Passes (rest : List Int) (unknown : Bool) (known : Nat) : Prop where
  oneOpen : rest.count (-1) + unknown.toNat ≤ 1
  nonneg : ∀ d ∈ rest, d ≠ -1 → 0 ≤ d
  products : ∀ k, known * givenProduct (rest.take k) < sizeLimit

variable {rest dims : List Int} {unknown : Bool} {known : Nat} {d : Int}

theorem Passes.known_lt (h : Passes rest unknown known) : known < sizeLimit := by
  have hknown := h.products 0
  simpa using hknown

theorem passes_nil : Passes [] unknown known ↔ known < sizeLimit := by
  constructor
  · exact Passes.known_lt
  · intro hknown
    refine ⟨?_, nofun, fun k => ?_⟩
    · rw [List.count_nil, Nat.zero_add]
      exact Bool.toNat_le unknown
    · simpa using hknown

theorem passes_open :
    Passes (-1 :: rest) unknown known ↔ unknown = false ∧ Passes rest true known := by
  have hproducts : (∀ k, known * givenProduct ((-1 :: rest).take k) < sizeLimit) ↔
      ∀ k, known * givenProduct (rest.take k) < sizeLimit := by
    rw [← Nat.and_forall_add_one]
    simp only [List.take_succ_cons, givenProduct_open]
    exact ⟨fun h => h.2, fun h => ⟨h 0, h⟩⟩
  constructor
  · rintro ⟨hopen, hnonneg, h⟩
    rw [List.count_cons_self] at hopen
    have hunknown : unknown.toNat = 0 := by omega
    exact ⟨by simpa using hunknown, ⟨by simp; omega, fun d hd => hnonneg d (.tail _ hd),
      hproducts.mp h⟩⟩
  · rintro ⟨rfl, hopen, hnonneg, h⟩
    refine ⟨?_, ?_, hproducts.mpr h⟩
    · rw [List.count_cons_self]
      exact hopen
    · exact List.forall_mem_cons.mpr ⟨fun h => absurd rfl h, hnonneg⟩

theorem passes_cons (hd : d ≠ -1) :
    Passes (d :: rest) unknown known ↔
      known < sizeLimit ∧ 0 ≤ d ∧ Passes rest unknown (known * d.toNat) := by
  have hproducts : 0 ≤ d → ((∀ k, known * givenProduct ((d :: rest).take k) < sizeLimit) ↔
      known < sizeLimit ∧ ∀ k, (known * d.toNat : Nat) * givenProduct (rest.take k) < sizeLimit) := by
    intro hnonneg
    rw [← Nat.and_forall_add_one]
    simp only [List.take_succ_cons, givenProduct_cons hd, List.take_zero, givenProduct_nil, mul_one,
      Nat.cast_mul, Int.toNat_of_nonneg hnonneg, mul_assoc, Nat.cast_lt]
  constructor
  · rintro ⟨hopen, hnonneg, h⟩
    obtain ⟨hd', hrest⟩ := List.forall_mem_cons.mp hnonneg
    rw [List.count_cons_of_ne hd] at hopen
    obtain ⟨hknown, h⟩ := (hproducts (hd' hd)).mp h
    exact ⟨hknown, hd' hd, hopen, hrest, h⟩
  · rintro ⟨hknown, hd', hopen, hrest, h⟩
    refine ⟨?_, List.forall_mem_cons.mpr ⟨fun _ => hd', hrest⟩, (hproducts hd').mpr ⟨hknown, h⟩⟩
    rw [List.count_cons_of_ne hd]
    exact hopen

/-- The loop over the dimensions succeeds on those that pass. -/
theorem knownElements_eq_ok {ctx : Context} {unknown' : Bool} {known' : Nat}
    (hknown : known < sizeLimit) :
    knownElements ctx dims rest unknown known = .ok (unknown', known') ↔
      Passes rest unknown known ∧ unknown' = (unknown || decide (-1 ∈ rest)) ∧
        (known' : Int) = known * givenProduct rest := by
  induction rest generalizing unknown known with
  | nil =>
    rw [knownElements, passes_nil]
    simp [hknown, eq_comm]
  | cons d rest ih =>
    by_cases hd : d = -1
    · subst hd
      rw [passes_open, knownElements, if_pos rfl, givenProduct_open]
      cases unknown with
      | true => simp
      | false =>
        rw [if_neg nofun, ih hknown]
        simp
    · rw [passes_cons hd, knownElements, if_neg hd, givenProduct_cons hd]
      by_cases hbad : d < 0 ∨ sizeLimit ≤ known * d.toNat
      · rw [if_pos hbad]
        constructor
        · nofun
        · rintro ⟨⟨-, hnonneg, hpasses⟩, -⟩
          have hlimit := hpasses.known_lt
          omega
      · obtain ⟨hnonneg, hlimit⟩ := not_or.mp hbad
        have hd' : ((d.toNat : Nat) : Int) = d := Int.toNat_of_nonneg (not_lt.mp hnonneg)
        rw [if_neg hbad, ih (not_le.mp hlimit), Nat.cast_mul, hd', mul_assoc]
        simp [hknown, not_lt.mp hnonneg, Ne.symm hd]

/-! ### The open dimension -/

theorem inferredSize_eq_ok {ctx : Context} {elements size : Nat} :
    inferredSize ctx dims elements unknown known = .ok size ↔
      unknown = false ∧ size = 1 ∨
      unknown = true ∧ 0 < known ∧ known ∣ elements ∧ size = elements / known := by
  cases unknown with
  | false => simp [inferredSize, eq_comm]
  | true =>
    rw [inferredSize, if_neg (by simp)]
    by_cases hzero : known = 0
    · rw [if_pos hzero]
      simp [hzero]
    · rw [if_neg hzero, remainder_eq_ok hzero, except_ok_bind, quotient_eq_ok hzero]
      by_cases hdvd : elements % known = 0
      · rw [if_neg (not_not.mpr hdvd)]
        simp [Nat.pos_of_ne_zero hzero, Nat.dvd_of_mod_eq_zero hdvd, eq_comm]
      · rw [if_pos hdvd]
        constructor
        · nofun
        · rintro (⟨hfalse, -⟩ | ⟨-, -, hdvd', -⟩)
          · cases hfalse
          · exact absurd (Nat.mod_eq_zero_of_dvd hdvd') hdvd

/-- The elements of the shape: those of the given dimensions, and the size of the open one if there
is one. -/
theorem elements_filledDims (hnonneg : ∀ d ∈ dims, d ≠ -1 → 0 ≤ d) (size : Nat) :
    ((filledDims dims size).elements : Int) = givenProduct dims * size ^ dims.count (-1) := by
  induction dims with
  | nil => rfl
  | cons d dims ih =>
    obtain ⟨hd, hrest⟩ := List.forall_mem_cons.mp hnonneg
    have ih := ih hrest
    rw [filledDims] at ih
    by_cases hopen : d = -1
    · subst hopen
      rw [filledDims, List.map_cons, if_pos rfl, Shape.elements_cons, Nat.cast_mul, ih,
        givenProduct_open, List.count_cons_self]
      ring
    · rw [filledDims, List.map_cons, if_neg hopen, Shape.elements_cons, Nat.cast_mul, ih,
        Int.toNat_of_nonneg (hd hopen), givenProduct_cons hopen, List.count_cons_of_ne hopen]
      ring

theorem filledDims_of_not_mem (h : -1 ∉ dims) (size size' : Nat) :
    filledDims dims size = filledDims dims size' := by
  refine List.map_congr_left fun d hd => ?_
  have hopen : d ≠ -1 := fun h' => h (h' ▸ hd)
  rw [if_neg hopen, if_neg hopen]

/-- The size of the open dimension. -/
def openSize (dims : List Int) (elements : Nat) : Nat := elements / (givenProduct dims).toNat

namespace Reshapes

variable {elements : Nat} (h : Reshapes dims elements)
include h

theorem exists_product : ∃ product : Nat, givenProduct dims = product := by
  obtain ⟨-, hproduct⟩ | ⟨-, hpos, -⟩ := h.even
  · exact ⟨elements, hproduct⟩
  · exact Int.eq_ofNat_of_zero_le hpos.le

theorem elements_eq : (filledDims dims (openSize dims elements)).elements = elements := by
  zify
  rw [elements_filledDims h.nonneg]
  obtain ⟨hopen, hproduct⟩ | ⟨hopen, hpos, hdvd⟩ := h.even
  · rw [List.count_eq_zero_of_not_mem hopen, pow_zero, mul_one, hproduct]
  · have hcount : dims.count (-1) = 1 :=
      Nat.le_antisymm h.oneOpen (List.count_pos_iff.mpr hopen)
    rw [hcount, pow_one, openSize, Int.natCast_ediv, Int.toNat_of_nonneg hpos.le]
    exact Int.mul_ediv_cancel' hdvd

/-- The open dimension gets the one number that makes the elements come out even. -/
theorem eq_openSize_iff (hopen : -1 ∈ dims) (q : Nat) :
    givenProduct dims * q = elements ↔ q = openSize dims elements := by
  obtain ⟨hopen', -⟩ | ⟨-, hpos, hdvd⟩ := h.even
  · exact absurd hopen hopen'
  obtain ⟨product, hproduct⟩ := h.exists_product
  rw [hproduct] at hpos hdvd
  rw [openSize, hproduct, Int.toNat_natCast, ← Nat.cast_mul, Nat.cast_inj]
  constructor
  · rintro rfl
    exact (Nat.mul_div_cancel_left q (by exact_mod_cast hpos)).symm
  · rintro rfl
    exact Nat.mul_div_cancel' (by exact_mod_cast hdvd)

/-- The sizes of the shape can be multiplied from the left without leaving the range of a 64-bit
size. -/
theorem take_lt (hlimit : elements < sizeLimit) (k : Nat) :
    Shape.elements ((filledDims dims (openSize dims elements)).take k) < sizeLimit := by
  have htake : (filledDims dims (openSize dims elements)).take k =
      filledDims (dims.take k) (openSize dims elements) := List.map_take.symm
  by_cases hopen : -1 ∈ dims.take k
  · rcases Nat.eq_zero_or_pos elements with rfl | hpos
    · -- Nothing is left for the open dimension, so it is empty.
      zify
      rw [htake, elements_filledDims fun d hd => h.nonneg d (List.mem_of_mem_take hd), openSize,
        Nat.zero_div, Nat.cast_zero, zero_pow (List.count_pos_iff.mpr hopen).ne', mul_zero]
      decide
    · have hdvd : Shape.elements ((filledDims dims (openSize dims elements)).take k) ∣ elements := by
        have hsplit := Shape.elements_append ((filledDims dims (openSize dims elements)).take k)
          ((filledDims dims (openSize dims elements)).drop k)
        rw [List.take_append_drop, h.elements_eq] at hsplit
        exact Dvd.intro _ hsplit.symm
      exact (Nat.le_of_dvd hpos hdvd).trans_lt hlimit
  · zify
    rw [htake, elements_filledDims fun d hd => h.nonneg d (List.mem_of_mem_take hd),
      List.count_eq_zero_of_not_mem hopen, pow_zero, mul_one]
    exact h.products k

end Reshapes

theorem passes_start : Passes dims false 1 ↔
    dims.count (-1) ≤ 1 ∧ (∀ d ∈ dims, d ≠ -1 → 0 ≤ d) ∧
      ∀ k, givenProduct (dims.take k) < sizeLimit := by
  constructor
  · rintro ⟨hopen, hnonneg, hproducts⟩
    exact ⟨hopen, hnonneg, by simpa using hproducts⟩
  · rintro ⟨hopen, hnonneg, hproducts⟩
    exact ⟨hopen, hnonneg, by simpa using hproducts⟩

/-- The parts of the inference: the product of the given dimensions, the size of the open one, and
the last check. -/
theorem inferDims_parts {ctx : Context} {elements : Nat} {shape : Shape} :
    inferDims ctx dims elements = .ok shape ↔
      ∃ unknown known size, knownElements ctx dims dims false 1 = .ok (unknown, known) ∧
        inferredSize ctx dims elements unknown known = .ok size ∧
        shape = filledDims dims size ∧ shape.elements = elements := by
  rw [inferDims, except_bind_eq_ok]
  constructor
  · rintro ⟨⟨unknown, known⟩, hknown, h⟩
    obtain ⟨size, hsize, h⟩ := except_bind_eq_ok.mp h
    dsimp only at h
    split at h
    case isTrue => cases h
    case isFalse helements =>
      obtain rfl := Except.ok.inj h
      exact ⟨unknown, known, size, hknown, hsize, rfl, not_not.mp helements⟩
  · rintro ⟨unknown, known, size, hknown, hsize, rfl, helements⟩
    exact ⟨(unknown, known), hknown,
      except_bind_eq_ok.mpr ⟨size, hsize, if_neg (not_not.mpr helements)⟩⟩

/-- The inference accepts just the dimensions that the elements can be read as. -/
theorem inferDims_eq_ok {ctx : Context} {elements : Nat} {shape : Shape} :
    inferDims ctx dims elements = .ok shape ↔
      Reshapes dims elements ∧ shape = filledDims dims (openSize dims elements) := by
  have hone : 1 < sizeLimit := by decide
  rw [inferDims_parts]
  constructor
  · rintro ⟨unknown, known, size, hknown, hsize, rfl, helements⟩
    obtain ⟨hpasses, hunknown, hproduct⟩ := (knownElements_eq_ok hone).mp hknown
    obtain ⟨hopen, hnonneg, hproducts⟩ := passes_start.mp hpasses
    rw [Nat.cast_one, one_mul] at hproduct
    obtain ⟨rfl, rfl⟩ | ⟨rfl, hpos, hdvd, rfl⟩ := inferredSize_eq_ok.mp hsize
    · have hclosed : -1 ∉ dims := by simpa using hunknown
      have hproduct' : givenProduct dims = elements := by
        have hfilled := elements_filledDims hnonneg 1
        rw [helements, Nat.cast_one, one_pow, mul_one] at hfilled
        exact hfilled.symm
      exact ⟨⟨hopen, hnonneg, hproducts, .inl ⟨hclosed, hproduct'⟩⟩,
        filledDims_of_not_mem hclosed _ _⟩
    · have hmem : -1 ∈ dims := by simpa using hunknown
      rw [openSize, ← hproduct, Int.toNat_natCast]
      refine ⟨⟨hopen, hnonneg, hproducts, .inr ⟨hmem, ?_, ?_⟩⟩, rfl⟩
      · rw [← hproduct]
        exact_mod_cast hpos
      · rw [← hproduct]
        exact_mod_cast hdvd
  · rintro ⟨h, rfl⟩
    obtain ⟨product, hproduct⟩ := h.exists_product
    have hknown : knownElements ctx dims dims false 1 = .ok (decide (-1 ∈ dims), product) := by
      rw [knownElements_eq_ok hone, passes_start, hproduct]
      exact ⟨⟨h.oneOpen, h.nonneg, h.products⟩, rfl, by simp⟩
    obtain ⟨hclosed, -⟩ | ⟨hmem, hpos, hdvd⟩ := h.even
    · have hsize : inferredSize ctx dims elements (decide (-1 ∈ dims)) product = .ok 1 :=
        inferredSize_eq_ok.mpr (.inl ⟨by simpa using hclosed, rfl⟩)
      exact ⟨_, _, 1, hknown, hsize, filledDims_of_not_mem hclosed _ _, h.elements_eq⟩
    · rw [hproduct] at hpos hdvd
      have hsize : inferredSize ctx dims elements (decide (-1 ∈ dims)) product =
          .ok (openSize dims elements) := by
        rw [inferredSize_eq_ok, openSize, hproduct, Int.toNat_natCast]
        exact .inr ⟨by simpa using hmem, by exact_mod_cast hpos, by exact_mod_cast hdvd, rfl⟩
      exact ⟨_, _, _, hknown, hsize, rfl, h.elements_eq⟩

/-! ### Appending the node -/

/-- The last part of the rule: with its target, the node is appended. -/
def reshapeAs (ctx : Context) (x : Wire) (target : Except Error Shape) : Emit Outputs := do
  let shape ← target
  ctx.output (← reshaped x shape)

section Rule

variable {ctx : Context} {g : Graph} {x : Wire} {ws : List Wire} {type : TensorType} {shape : Shape}

/-- The node of a reshape is appended wherever the elements are as many. -/
theorem reshaped_run (hx : g.type? x = some type)
    (helements : type.shape.elements = shape.elements) :
    reshaped x shape g = .ok g.size
      (g.push (.reshape (List.range type.shape.length) shape) [x] ⟨type.element, shape⟩) := by
  rw [reshaped, Step.bind_of_ok (shapeOf_of_type? hx)]
  exact emit_of_type hx (infer_reshape (isPermutation_range _) helements)

variable (hinputs : ctx.node.inputs = 2) (hdims : ctx.staticInts 1 = .ok dims)
  (hoperand : ws[0]? = some x) (hx : g.type? x = some type)
include hinputs hdims hoperand hx

theorem reshape_eq :
    Rule.reshape ctx ws g = reshapeAs ctx x (inferDims ctx dims type.shape.elements) g := by
  rw [Rule.reshape, Context.needInputs_run hinputs,
    Step.lift_bind_of_ok hdims, Step.lift_bind_of_ok (entryAt_eq_ok hoperand),
    Step.bind_of_ok (shapeOf_of_type? hx)]
  rfl

theorem reshape_of_infer (hslots : 0 < ctx.node.outputs)
    (hinfer : inferDims ctx dims type.shape.elements = .ok shape) :
    Rule.reshape ctx ws g = .ok (some g.size :: List.replicate (ctx.node.outputs - 1) none)
      (g.push (.reshape (List.range type.shape.length) shape) [x] ⟨type.element, shape⟩) := by
  have helements : type.shape.elements = shape.elements := by
    obtain ⟨h, rfl⟩ := inferDims_eq_ok.mp hinfer
    exact h.elements_eq.symm
  rw [reshape_eq hinputs hdims hoperand hx, reshapeAs, Step.lift_bind_of_ok hinfer,
    Step.bind_of_ok (reshaped_run hx helements)]
  exact Context.output_run hslots _ _

theorem reshape_of_refused {e : Error}
    (hinfer : inferDims ctx dims type.shape.elements = .error e) :
    Rule.reshape ctx ws g = .error e g := by
  rw [reshape_eq hinputs hdims hoperand hx, hinfer]
  rfl

end Rule

/-- **The target of a reshape is inferred exactly.** Take the node of a reshape with two data inputs,
integers on its second one, an output slot and an operand in the arena. It is lowered just if the
elements of the operand can be read as the dimensions. The result then has these dimensions, in which
the open one is the only number that makes the elements come out even; it has as many elements as the
operand, and multiplying its sizes from the left stays in the range of a 64-bit size if that number
does. Appending the node never fails: a failure is one of the inference and leaves the arena as it
was. -/
theorem reshape_target_exact {ctx : Context} {g : Graph} {x : Wire} {ws : List Wire}
    {dims : List Int} {type : TensorType} (hinputs : ctx.node.inputs = 2)
    (hslots : 0 < ctx.node.outputs) (hdims : ctx.staticInts 1 = .ok dims)
    (hoperand : ws[0]? = some x) (hx : g.type? x = some type) :
    ((∃ outputs h, Rule.reshape ctx ws g = .ok outputs h) ↔ Reshapes dims type.shape.elements) ∧
    (∀ outputs h, Rule.reshape ctx ws g = .ok outputs h →
      ∃ y shape size, outputs[0]? = some (some y) ∧
        h.nodes[y]? = some ⟨y, .reshape (List.range type.shape.length) shape, [x],
          ⟨type.element, shape⟩⟩ ∧
        shape = filledDims dims size ∧
        (-1 ∈ dims → ∀ q : Nat, givenProduct dims * q = type.shape.elements ↔ q = size) ∧
        shape.elements = type.shape.elements ∧
        (type.shape.elements < sizeLimit → ∀ k, Shape.elements (shape.take k) < sizeLimit)) ∧
    (∀ shape, inferDims ctx dims type.shape.elements = .ok shape →
      ∃ y h, reshaped x shape g = .ok y h) ∧
    ∀ e h, Rule.reshape ctx ws g = .error e h →
      inferDims ctx dims type.shape.elements = .error e ∧ h = g := by
  cases hinfer : inferDims ctx dims type.shape.elements with
  | error e =>
    have hrule := reshape_of_refused hinputs hdims hoperand hx hinfer
    rw [hrule]
    refine ⟨⟨nofun, fun h => ?_⟩, nofun, nofun, fun e' h hrun => ?_⟩
    · rw [inferDims_eq_ok.mpr ⟨h, rfl⟩] at hinfer
      cases hinfer
    · obtain ⟨rfl, rfl⟩ := EStateM.Result.error.inj hrun
      exact ⟨rfl, rfl⟩
  | ok shape =>
    have hrule := reshape_of_infer hinputs hdims hoperand hx hslots hinfer
    obtain ⟨hreshapes, rfl⟩ := inferDims_eq_ok.mp hinfer
    rw [hrule]
    refine ⟨⟨fun _ => hreshapes, fun _ => ⟨_, _, rfl⟩⟩, fun outputs h hrun => ?_, ?_, nofun⟩
    · obtain ⟨rfl, rfl⟩ := EStateM.Result.ok.inj hrun
      exact ⟨g.size, _, openSize dims type.shape.elements, rfl, g.node_push_self _ _ _, rfl,
        hreshapes.eq_openSize_iff, hreshapes.elements_eq, hreshapes.take_lt⟩
    · intro shape hshape
      obtain rfl := Except.ok.inj hshape
      exact ⟨_, _, reshaped_run hx hreshapes.elements_eq.symm⟩

/-- A reshape whose dimensions are a constant. -/
def reshapeTo (dims : List Int) : Context :=
  .fedByConstant { name := "r", op := "Reshape" } 1 dims

/-- Without elements, large dimensions behind an empty one are accepted and those before it are
refused, and so is an open dimension beside an empty one. Twelve elements fill an open dimension
between two others. -/
theorem reshapeTo_verdicts :
    Reshapes [0, 2 ^ 62, 2 ^ 62] 0 ∧ ¬ Reshapes [2 ^ 62, 2 ^ 62, 0] 0 ∧ ¬ Reshapes [0, -1] 0 ∧
    ∃ outputs h y,
      Rule.reshape (reshapeTo [2, -1, 3]) [0] (.ofParameters [⟨.f32, [4, 3]⟩]) = .ok outputs h ∧
      outputs[0]? = some (some y) ∧ h.type? y = some ⟨.f32, [2, 2, 3]⟩ ∧
      ∀ q : Nat, givenProduct [2, -1, 3] * q = 12 ↔ q = 2 := by
  have hexact := fun dims shape (h : (reshapeTo dims).staticInts 1 = .ok dims) =>
    @reshape_target_exact (reshapeTo dims) (.ofParameters [⟨.f32, shape⟩]) 0 [0] dims
      ⟨.f32, shape⟩ rfl Nat.one_pos h rfl rfl
  refine ⟨?_, ?_, ?_, ?_⟩
  · exact (hexact [0, 2 ^ 62, 2 ^ 62] [4, 0] rfl).1.mp ⟨_, _, rfl⟩
  · intro h
    obtain ⟨_, _, hrun⟩ := (hexact [2 ^ 62, 2 ^ 62, 0] [4, 0] rfl).1.mpr h
    cases hrun
  · intro h
    obtain ⟨_, _, hrun⟩ := (hexact [0, -1] [4, 0] rfl).1.mpr h
    cases hrun
  · have hrun : ∃ outputs h, Rule.reshape (reshapeTo [2, -1, 3]) [0]
        (.ofParameters [⟨.f32, [4, 3]⟩]) = .ok outputs h := ⟨_, _, rfl⟩
    obtain ⟨outputs, h, hrun⟩ := hrun
    obtain ⟨y, shape, size, hy, hnode, rfl, hsize, -⟩ :=
      (hexact [2, -1, 3] [4, 3] rfl).2.1 outputs h hrun
    have hsize := hsize (by decide)
    obtain rfl : 2 = size := (hsize 2).mp rfl
    exact ⟨outputs, h, y, hrun, hy, by rw [Graph.type?, hnode]; rfl, hsize⟩

end GraphLowering
