import Mathlib
import GraphLowering.CommandLine
import GraphLowering.Proofs.Numerals
import GraphLowering.Proofs.Step

/-!
# The values of options

A shape is written as its dimensions with an `x` between them, and the value of a static argument as
the position of the argument, an equals sign and the integers with commas between them. Both readers
cut a text at its dividers and read the pieces one by one. No numeral holds a divider, so the pieces
of a text that was put together from numerals are those numerals again.

* `Text.mapM_splitAt_eq_some` — reading the pieces of a text, for readers that refuse dividers.
* `Text.trim_eq_iff` — what is left of a text without the blanks around it.
* `shapeOption?_eq_some`, `staticOption?_eq_some` — the texts that the two readers accept.
* `option_values_round_trip` — lists of integers that are written are read back.
-/

namespace GraphLowering

namespace Text

/-! ### Pieces between dividers -/

variable {divider : Char} {text before after core : List Char} {α : Type}

theorem splitAt_eq_splitOn (divider : Char) (text : List Char) :
    splitAt divider text = text.splitOn divider := by
  induction text with
  | nil => rfl
  | cons c text ih =>
    rw [splitAt, List.splitOn_cons_eq_if_modifyHead, ih]
    by_cases hc : c = divider
    · rw [if_pos hc, if_pos (beq_iff_eq.mpr hc)]
    · rw [if_neg hc, if_neg (mt beq_iff_eq.mp hc)]
      -- there is a first piece, and the character joins it
      obtain ⟨piece, pieces, hpieces⟩ := List.exists_cons_of_ne_nil
        (List.splitOn_ne_nil divider text)
      rw [hpieces]
      rfl

/-- A text is read piece by piece just when it is some pieces, at least one, with the divider
between them, and each of them is accepted. -/
theorem mapM_splitAt_eq_some {read : List Char → Option α} {Accepts : List Char → α → Prop}
    (hread : ∀ {piece a}, read piece = some a ↔ Accepts piece a)
    (hdivider : ∀ {piece a}, Accepts piece a → divider ∉ piece) {joint line : String}
    (hjoint : joint.toList = [divider]) {values : List α} :
    (splitAt divider line.toList).mapM read = some values ↔
      ∃ pieces : List String, pieces ≠ [] ∧ line = joint.intercalate pieces ∧
        List.Forall₂ (fun piece a => Accepts piece.toList a) pieces values := by
  rw [splitAt_eq_splitOn, option_mapM_eq_some]
  simp only [hread]
  constructor
  · intro h
    refine ⟨(line.toList.splitOn divider).map String.ofList, ?_, ?_, ?_⟩
    · simp [List.splitOn_ne_nil]
    · rw [← String.toList_inj, String.toList_intercalate, hjoint, List.map_map]
      simp [Function.comp_def, List.intercalate_splitOn]
    · rw [List.forall₂_map_left_iff]
      simpa only [String.toList_ofList] using h
  · rintro ⟨pieces, hne, rfl, h⟩
    have hpieces : ∀ piece ∈ pieces.map String.toList, divider ∉ piece := by
      intro piece hpiece
      obtain ⟨piece, hmem, rfl⟩ := List.mem_map.mp hpiece
      obtain ⟨a, -, ha⟩ := forall₂_exists_right h hmem
      exact hdivider ha
    rw [String.toList_intercalate, hjoint,
      List.splitOn_intercalate divider hpieces (by simpa using hne), List.forall₂_map_left_iff]
    exact h

theorem splitFirst?_append (h : divider ∉ before) :
    splitFirst? divider (before ++ divider :: after) = some (before, after) := by
  induction before with
  | nil => rw [List.nil_append, splitFirst?, if_pos rfl]
  | cons c before ih =>
    obtain ⟨hc, hbefore⟩ := not_or.mp (mt List.mem_cons.mpr h)
    rw [List.cons_append, splitFirst?, if_neg (Ne.symm hc), ih hbefore]
    rfl

theorem splitFirst?_eq_some (h : splitFirst? divider text = some (before, after)) :
    text = before ++ divider :: after := by
  induction text generalizing before with
  | nil => cases h
  | cons c text ih =>
    rw [splitFirst?] at h
    by_cases hc : c = divider
    · rw [if_pos hc] at h
      obtain ⟨rfl, rfl⟩ := Prod.mk.inj (Option.some.inj h)
      rw [hc, List.nil_append]
    · rw [if_neg hc] at h
      obtain ⟨⟨before, after⟩, hsplit, hparts⟩ := Option.map_eq_some_iff.mp h
      obtain ⟨rfl, rfl⟩ := Prod.mk.inj hparts
      rw [ih hsplit, List.cons_append]

/-! ### Blanks around a text -/

/-- A text is the core with blanks, or with nothing, on its two sides. -/
def Padded (text core : List Char) : Prop :=
  ∃ before after, text = before ++ core ++ after ∧ (∀ c ∈ before, isBlank c) ∧
    ∀ c ∈ after, isBlank c

theorem Padded.refl (core : List Char) : Padded core core :=
  ⟨[], [], (List.append_nil core).symm, nofun, nofun⟩

/-- A character that is neither blank nor in the core is not in the text. -/
theorem Padded.notMem {c : Char} (h : Padded text core) (hblank : isBlank c = false)
    (hcore : c ∉ core) : c ∉ text := by
  obtain ⟨before, after, rfl, hbefore, hafter⟩ := h
  have hnot : ∀ side : List Char, (∀ d ∈ side, isBlank d) → c ∉ side := by
    intro side hside hc
    rw [hside c hc] at hblank
    cases hblank
  simp [hnot before hbefore, hnot after hafter, hcore]

/-- Every text is what is left of it, between blanks. -/
theorem padded_trim (text : List Char) : Padded text (trim text) := by
  refine ⟨text.takeWhile isBlank, (text.dropWhile isBlank).rtakeWhile isBlank, ?_, ?_, ?_⟩
  · show text = text.takeWhile isBlank ++ (text.dropWhile isBlank).rdropWhile isBlank ++ _
    rw [List.append_assoc, List.rdropWhile_append_rtakeWhile, List.takeWhile_append_dropWhile]
  · intro c hc
    exact List.mem_takeWhile_imp hc
  · intro c hc
    exact List.mem_rtakeWhile_imp hc

theorem dropWhile_isBlank_append (hbefore : ∀ c ∈ before, isBlank c)
    (hcore : ∀ c ∈ core, isBlank c = false) (hne : core ≠ []) (rest : List Char) :
    (before ++ (core ++ rest)).dropWhile isBlank = core ++ rest := by
  obtain ⟨c, core, rfl⟩ := List.exists_cons_of_ne_nil hne
  have hc : ¬ isBlank c := by simp [hcore c List.mem_cons_self]
  rw [List.dropWhile_append_of_pos hbefore, List.cons_append, List.dropWhile_cons_of_neg hc]

/-- A core without blanks is what is left of a text just when blanks surround it. -/
theorem trim_eq_iff (hcore : ∀ c ∈ core, isBlank c = false) :
    trim text = core ↔ Padded text core := by
  constructor
  · rintro rfl
    exact padded_trim text
  · rintro ⟨before, after, rfl, hbefore, hafter⟩
    unfold trim
    by_cases hne : core = []
    · have hall : ∀ c ∈ before ++ core ++ after, isBlank c := by
        rw [hne, List.append_nil]
        exact List.forall_mem_append.mpr ⟨hbefore, hafter⟩
      rw [List.dropWhile_eq_nil_iff.mpr hall, hne]
      rfl
    · -- from behind, the core and the blanks after it are a core with blanks before it
      have hcore' : ∀ c ∈ core.reverse, isBlank c = false := by simpa using hcore
      have hafter' : ∀ c ∈ after.reverse, isBlank c := by simpa using hafter
      have hbehind := dropWhile_isBlank_append hafter' hcore' (by simpa using hne) []
      rw [List.append_nil] at hbehind
      rw [List.append_assoc, dropWhile_isBlank_append hbefore hcore hne, List.reverse_append,
        hbehind, List.reverse_reverse]

theorem isBlank_eq_false_of_isDigit {c : Char} (h : c.isDigit) : isBlank c = false := by
  have hrange : 48 ≤ c.toNat ∧ c.toNat ≤ 57 := by
    simpa [Char.isDigit, UInt32.le_iff_toNat_le] using h
  simp only [isBlank, blankRanges, List.any_cons, List.any_nil, Bool.or_false, Bool.or_eq_false_iff,
    Bool.and_eq_false_iff, decide_eq_false_iff_not]
  omega

theorem DenotesInteger.isBlank_eq_false {z : Int} (h : DenotesInteger text z) :
    ∀ c ∈ text, isBlank c = false := by
  intro c hc
  obtain hdigit | rfl | rfl := h.char hc
  · exact isBlank_eq_false_of_isDigit hdigit
  · decide
  · decide

/-- An integer is read from a numeral with blanks around it, and from nothing else. -/
theorem int64?_trim_eq_some {z : Int} :
    int64? (trim text) = some z ↔ ∃ core, Padded text core ∧ DenotesInteger core z := by
  rw [int64?_eq_some]
  constructor
  · intro h
    exact ⟨trim text, padded_trim text, h⟩
  · rintro ⟨core, hpadded, h⟩
    rwa [(trim_eq_iff h.isBlank_eq_false).mpr hpadded]

end Text

/-! ### The two readers -/

variable {text : String}

/-- A shape is `scalar`, without dimensions, or numerals of its dimensions with an `x` between
them. -/
theorem shapeOption?_eq_some {dims : List Int} :
    shapeOption? text = some dims ↔
      (text = "scalar" ∧ dims = []) ∨
        ∃ pieces : List String, pieces ≠ [] ∧ text = "x".intercalate pieces ∧
          List.Forall₂ (fun piece d => Text.DenotesInteger piece.toList d) pieces dims := by
  have hdivider {piece : List Char} {d : Int} (h : Text.DenotesInteger piece d) : 'x' ∉ piece :=
    h.notMem (by decide) (by decide) (by decide)
  rw [← Text.mapM_splitAt_eq_some Text.int64?_eq_some hdivider rfl, shapeOption?]
  by_cases hscalar : text = "scalar"
  · -- the word is no numeral, so that it is not read as a shape of one dimension
    have hnone : (Text.splitAt 'x' text.toList).mapM Text.int64? = none := by
      rw [hscalar]
      rfl
    rw [if_pos hscalar, hnone]
    simp [hscalar, eq_comm]
  · rw [if_neg hscalar]
    simp [hscalar]

/-- The integers of a static argument are numerals, possibly with blanks around them, with commas
between them. -/
theorem staticValues_eq_some {line : String} {values : List Int} :
    ((Text.splitAt ',' line.toList).mapM fun value => Text.int64? (Text.trim value)) =
        some values ↔
      ∃ pieces : List String, pieces ≠ [] ∧ line = ",".intercalate pieces ∧
        List.Forall₂ (fun piece v => ∃ core, Text.Padded piece.toList core ∧
          Text.DenotesInteger core v) pieces values := by
  refine Text.mapM_splitAt_eq_some Text.int64?_trim_eq_some ?_ rfl
  rintro piece v ⟨core, hpadded, hcore⟩
  exact hpadded.notMem (by decide) (hcore.notMem (by decide) (by decide) (by decide))

/-- The value of a static argument is a numeral of its position, an equals sign and its integers. -/
theorem staticOption?_eq_some {index : Nat} {values : List Int} :
    staticOption? text = some (index, values) ↔
      ∃ (digits : String) (pieces : List String), pieces ≠ [] ∧
        text = digits ++ "=" ++ ",".intercalate pieces ∧ Text.DenotesSize digits.toList index ∧
        List.Forall₂ (fun piece v => ∃ core, Text.Padded piece.toList core ∧
          Text.DenotesInteger core v) pieces values := by
  have hparts (digits line : String) :
      (digits ++ "=" ++ line).toList = digits.toList ++ '=' :: line.toList := by
    rw [String.toList_append, String.toList_append, List.append_assoc]
    rfl
  constructor
  · intro h
    obtain ⟨⟨digits, line⟩, hsplit, h⟩ := Option.bind_eq_some_iff.mp h
    obtain ⟨values', hvalues, h⟩ := Option.bind_eq_some_iff.mp h
    obtain ⟨index', hindex, h⟩ := Option.bind_eq_some_iff.mp h
    obtain ⟨rfl, rfl⟩ := Prod.mk.inj (Option.some.inj h)
    rw [← String.toList_ofList (l := line)] at hvalues
    obtain ⟨pieces, hne, hline, hpieces⟩ := staticValues_eq_some.mp hvalues
    refine ⟨String.ofList digits, pieces, hne, ?_, ?_, hpieces⟩
    · rw [← hline, ← String.toList_inj, hparts, String.toList_ofList, String.toList_ofList]
      exact Text.splitFirst?_eq_some hsplit
    · rw [String.toList_ofList]
      exact Text.size?_eq_some.mp hindex
  · rintro ⟨digits, pieces, hne, rfl, hindex, hpieces⟩
    -- the numeral holds no equals sign, so the first one of the text is the one behind it
    have hequals : '=' ∉ digits.toList := hindex.notMem (by decide) (by decide)
    unfold staticOption?
    rw [hparts, Text.splitFirst?_append hequals]
    dsimp only [Option.bind_eq_bind, Option.bind_some]
    rw [staticValues_eq_some.mpr ⟨pieces, hne, rfl, hpieces⟩, Text.size?_eq_some.mpr hindex]
    rfl

/-! ### Values that are written and read -/

/-- The dimensions of a shape, written with an `x` between them, are read back. -/
theorem shapeOption?_intercalate {dims : List Int} (hne : dims ≠ [])
    (hdims : ∀ d ∈ dims, -2 ^ 63 ≤ d ∧ d < 2 ^ 63) :
    shapeOption? ("x".intercalate (dims.map toString)) = some dims := by
  rw [shapeOption?_eq_some]
  refine .inr ⟨dims.map toString, by simpa using hne, rfl, ?_⟩
  rw [List.forall₂_map_left_iff, List.forall₂_same]
  intro d hd
  exact .toString (hdims d hd).1 (hdims d hd).2

theorem shapeOption?_eq_some_nil : shapeOption? text = some [] ↔ text = "scalar" := by
  rw [shapeOption?_eq_some]
  constructor
  · rintro (⟨htext, -⟩ | ⟨pieces, hne, -, hpieces⟩)
    · exact htext
    · exact absurd (List.forall₂_nil_right_iff.mp hpieces) hne
  · intro htext
    exact .inl ⟨htext, rfl⟩

/-- The integers of a static argument are read back with blanks around them. -/
theorem staticOption?_intercalate {index : Nat} {values : List Int} {pieces : List String}
    (hindex : index < 2 ^ 64) (hne : values ≠ [])
    (hvalues : ∀ v ∈ values, -2 ^ 63 ≤ v ∧ v < 2 ^ 63)
    (hpieces : List.Forall₂ (fun piece v => Text.Padded piece.toList (toString v).toList) pieces
      values) :
    staticOption? (toString index ++ "=" ++ ",".intercalate pieces) = some (index, values) := by
  rw [staticOption?_eq_some]
  refine ⟨toString index, pieces, ?_, rfl, ?_, ?_⟩
  · rintro rfl
    exact hne (List.forall₂_nil_left_iff.mp hpieces)
  · exact .toString hindex
  · have hboth := (List.forall₂_and_left _ _).mpr ⟨hvalues, hpieces.flip⟩
    refine hboth.flip.imp ?_
    rintro piece v ⟨⟨hle, hlt⟩, hpadded⟩
    exact ⟨_, hpadded, .toString hle hlt⟩

/-- **Values that are written are read back.** A list of dimensions that is not empty is read from
their decimal notations with an `x` between them, and the list without dimensions from `scalar`
only. A position below `2 ^ 64` and a list of integers that is not empty are read from the decimal
notation of the position, an equals sign and the decimal notations of the integers with commas
between them, and the integers may have blanks around them. -/
theorem option_values_round_trip :
    (∀ dims : List Int, dims ≠ [] → (∀ d ∈ dims, -2 ^ 63 ≤ d ∧ d < 2 ^ 63) →
      shapeOption? ("x".intercalate (dims.map toString)) = some dims) ∧
    (∀ text, shapeOption? text = some [] ↔ text = "scalar") ∧
    (∀ (index : Nat) (values : List Int), index < 2 ^ 64 → values ≠ [] →
      (∀ v ∈ values, -2 ^ 63 ≤ v ∧ v < 2 ^ 63) →
      staticOption? (toString index ++ "=" ++ ",".intercalate (values.map toString)) =
        some (index, values) ∧
      ∀ pieces : List String,
        List.Forall₂ (fun piece v => Text.Padded piece.toList (toString v).toList) pieces values →
        staticOption? (toString index ++ "=" ++ ",".intercalate pieces) =
          some (index, values)) := by
  refine ⟨?_, ?_, ?_⟩
  · intro dims hne hdims
    exact shapeOption?_intercalate hne hdims
  · intro text
    exact shapeOption?_eq_some_nil
  · intro index values hindex hne hvalues
    constructor
    · refine staticOption?_intercalate hindex hne hvalues ?_
      rw [List.forall₂_map_left_iff, List.forall₂_same]
      intro v _
      exact .refl _
    · intro pieces hpieces
      exact staticOption?_intercalate hindex hne hvalues hpieces

/-- The least and the greatest dimension, the greatest position, and integers between a tab, a blank
and a no-break space. -/
theorem option_values_round_trip_extremes :
    shapeOption? "-9223372036854775808x0x9223372036854775807" =
      some [-9223372036854775808, 0, 9223372036854775807] ∧
    staticOption? "18446744073709551615=-9223372036854775808,9223372036854775807" =
      some (18446744073709551615, [-9223372036854775808, 9223372036854775807]) ∧
    staticOption? "18446744073709551615=\t-9223372036854775808 , 9223372036854775807\u00a0" =
      some (18446744073709551615, [-9223372036854775808, 9223372036854775807]) := by
  obtain ⟨hshape, -, hstatic⟩ := option_values_round_trip
  obtain ⟨hplain, hpadded⟩ := hstatic 18446744073709551615
    [-9223372036854775808, 9223372036854775807] (by decide) (by decide) (by decide)
  have hpieces : List.Forall₂
      (fun piece v => Text.Padded (String.toList piece) (toString v).toList)
      ["\t-9223372036854775808 ", " 9223372036854775807\u00a0"]
      [(-9223372036854775808 : Int), 9223372036854775807] := by
    refine .cons ⟨['\t'], [' '], rfl, ?_, ?_⟩ (.cons ⟨[' '], ['\u00a0'], rfl, ?_, ?_⟩ .nil)
    all_goals exact List.forall_mem_singleton.mpr (by decide)
  have hdims := hshape [-9223372036854775808, 0, 9223372036854775807] (by decide) (by decide)
  refine ⟨?_, ?_, ?_⟩
  · exact (congrArg shapeOption? (by rfl)).trans hdims
  · exact (congrArg staticOption? (by rfl)).trans hplain
  · exact (congrArg staticOption? (by rfl)).trans (hpadded _ hpieces)

end GraphLowering
