import Mathlib
import GraphLowering.Proofs.Numerals
import GraphLowering.Proofs.References

/-!
# The grammar of references

An input of a node is written `^name`, `name` or `name:number`. The reader splits at the last colon,
so that a name may hold colons, digits and carets of its own, and it takes any numeral of a size:
with leading zeros and with a `+`. The texts are described here without the reader, and the reader
is shown to accept exactly those.

* `InputRef.written_control_iff`, `InputRef.written_data_iff` — the characters of a reference.
* `InputRef.parse_eq_control`, `InputRef.parse_eq_data` — the texts that are read as a reference.
* `references_follow_grammar` — the grammar as a whole, with the numbers that are written back.
-/

namespace GraphLowering

namespace InputRef

variable {name text : String} {chars : List Char} {output : Nat}

theorem toList_ne_nil : name.toList ≠ [] ↔ name ≠ "" := by
  rw [ne_eq, String.toList_eq_nil_iff]

theorem written_control_iff :
    Written (.control name) chars ↔ name ≠ "" ∧ chars = '^' :: name.toList := by
  constructor
  · intro h
    cases h with
    | control h =>
      rw [← toList_ne_nil, String.toList_ofList]
      exact ⟨h, rfl⟩
  · rintro ⟨hname, rfl⟩
    have hwritten := Written.control (toList_ne_nil.mpr hname)
    rwa [String.ofList_toList] at hwritten

/-- A text begins as the name in front of it does. -/
theorem head?_append (hname : name ≠ "") (rest : List Char) :
    (name.toList ++ rest).head? = name.toList.head? :=
  List.head?_append_of_ne_nil _ (toList_ne_nil.mpr hname)

theorem written_data_iff :
    Written (.data name output) chars ↔
      chars.head? ≠ some '^' ∧ name ≠ "" ∧
        ((':' ∉ chars ∧ chars = name.toList ∧ output = 0) ∨
          ∃ digits, chars = name.toList ++ ':' :: digits ∧ ':' ∉ digits ∧
            Text.DenotesSize digits output) := by
  constructor
  · intro h
    cases h with
    | plain h hcaret hcolon =>
      rw [← toList_ne_nil, String.toList_ofList]
      exact ⟨hcaret, h, .inl ⟨hcolon, rfl, rfl⟩⟩
    | numbered h hcaret hcolon hdigits =>
      rw [← toList_ne_nil, String.toList_ofList, List.head?_append_of_ne_nil _ h]
      exact ⟨hcaret, h, .inr ⟨_, rfl, hcolon, Text.size?_eq_some.mp hdigits⟩⟩
  · rintro ⟨hcaret, hname, ⟨hcolon, rfl, rfl⟩ | ⟨digits, rfl, hcolon, hdigits⟩⟩
    · have hwritten := Written.plain (toList_ne_nil.mpr hname) hcaret hcolon
      rwa [String.ofList_toList] at hwritten
    · rw [head?_append hname] at hcaret
      have hwritten := Written.numbered (toList_ne_nil.mpr hname) hcaret hcolon
        (Text.size?_eq_some.mpr hdigits)
      rwa [String.ofList_toList] at hwritten

theorem parse_eq_control :
    parse text = .ok (.control name) ↔ name ≠ "" ∧ text = "^" ++ name := by
  have hchars : text.toList = '^' :: name.toList ↔ text = "^" ++ name := by
    rw [← String.toList_inj, String.toList_append]
    rfl
  rw [parse_eq_ok, written_control_iff, hchars]

theorem eq_append_colon_iff {digits : String} :
    text = name ++ ":" ++ digits ↔ text.toList = name.toList ++ ':' :: digits.toList := by
  rw [← String.toList_inj, String.toList_append, String.toList_append, List.append_assoc]
  rfl

theorem parse_eq_data :
    parse text = .ok (.data name output) ↔
      text.toList.head? ≠ some '^' ∧ name ≠ "" ∧
        ((':' ∉ text.toList ∧ text = name ∧ output = 0) ∨
          ∃ digits : String, text = name ++ ":" ++ digits ∧ ':' ∉ digits.toList ∧
            Text.DenotesSize digits.toList output) := by
  have hnumbered : (∃ digits, text.toList = name.toList ++ ':' :: digits ∧ ':' ∉ digits ∧
        Text.DenotesSize digits output) ↔
      ∃ digits : String, text = name ++ ":" ++ digits ∧ ':' ∉ digits.toList ∧
        Text.DenotesSize digits.toList output := by
    constructor
    · rintro ⟨digits, htext, hdigits⟩
      refine ⟨String.ofList digits, eq_append_colon_iff.mpr ?_, ?_⟩
      · rwa [String.toList_ofList]
      · rwa [String.toList_ofList]
    · rintro ⟨digits, htext, hdigits⟩
      exact ⟨digits.toList, eq_append_colon_iff.mp htext, hdigits⟩
  rw [parse_eq_ok, written_data_iff, hnumbered, String.toList_inj]

/-- What is read as no reference is refused with its text. -/
theorem parse_of_ne_ok (h : ∀ ref, parse text ≠ .ok ref) :
    parse text = .error (.invalid (.malformedReference text)) := by
  cases hparse : parse text with
  | ok ref => exact absurd hparse (h ref)
  | error error => rw [(parse_error hparse).1]

/-- The decimal notation of a size behind a name and a colon is read as that output of the node. -/
theorem parse_append_decimal (hname : name ≠ "") (hcaret : name.toList.head? ≠ some '^')
    (houtput : output < 2 ^ 64) :
    parse (name ++ ":" ++ toString output) = .ok (.data name output) := by
  have hdenotes := Text.DenotesSize.toString houtput
  -- the digits hold no colon, so the last colon of the text is the one behind the name
  have hcolon : ':' ∉ (toString output).toList := hdenotes.notMem (by decide) (by decide)
  rw [parse_eq_data]
  refine ⟨?_, hname, .inr ⟨toString output, rfl, hcolon, hdenotes⟩⟩
  rwa [eq_append_colon_iff.mp rfl, head?_append hname]

end InputRef

/-- References are read by their grammar. A text is an order after the node `name` just when it is a
caret and then the name, which is not empty. A text without a caret in front is output `output` of
the node `name` just when it is the name alone, without a colon and for output 0, or the name, a
colon and a numeral of the output behind the last colon. Every other text is refused, and so a
number below `2 ^ 64` that is written behind any name comes back with the name. -/
theorem references_follow_grammar :
    (∀ text name : String,
      InputRef.parse text = .ok (.control name) ↔ name ≠ "" ∧ text = "^" ++ name) ∧
    (∀ (text name : String) (output : Nat), text.toList.head? ≠ some '^' →
      (InputRef.parse text = .ok (.data name output) ↔
        (':' ∉ text.toList ∧ text = name ∧ name ≠ "" ∧ output = 0) ∨
        ∃ digits : String, text = name ++ ":" ++ digits ∧ name ≠ "" ∧ ':' ∉ digits.toList ∧
          Text.DenotesSize digits.toList output)) ∧
    (∀ (text name : String) (output : Nat), text.toList.head? = some '^' →
      InputRef.parse text ≠ .ok (.data name output)) ∧
    (∀ text, (∀ ref, InputRef.parse text ≠ .ok ref) →
      InputRef.parse text = .error (.invalid (.malformedReference text))) ∧
    (∀ (name : String) (output : Nat), name ≠ "" → name.toList.head? ≠ some '^' →
      output < 2 ^ 64 →
      InputRef.parse (name ++ ":" ++ toString output) = .ok (.data name output)) := by
  refine ⟨?_, ?_, ?_, ?_, ?_⟩
  · intro text name
    exact InputRef.parse_eq_control
  · intro text name output hcaret
    rw [InputRef.parse_eq_data]
    constructor
    · rintro ⟨-, hname, ⟨hcolon, htext, houtput⟩ | ⟨digits, htext, hdigits⟩⟩
      · exact .inl ⟨hcolon, htext, hname, houtput⟩
      · exact .inr ⟨digits, htext, hname, hdigits⟩
    · rintro (⟨hcolon, htext, hname, houtput⟩ | ⟨digits, htext, hname, hdigits⟩)
      · exact ⟨hcaret, hname, .inl ⟨hcolon, htext, houtput⟩⟩
      · exact ⟨hcaret, hname, .inr ⟨digits, htext, hdigits⟩⟩
  · intro text name output hcaret h
    exact (InputRef.parse_eq_data.mp h).1 hcaret
  · intro text h
    exact InputRef.parse_of_ne_ok h
  · intro name output hname hcaret houtput
    exact InputRef.parse_append_decimal hname hcaret houtput

/-- A lone caret is no reference, a name with a colon, a digit and a caret of its own is read back,
and a sign and leading zeros change nothing. -/
theorem references_follow_grammar_colons :
    InputRef.parse "^" = .error (.invalid (.malformedReference "^")) ∧
    InputRef.parse "a:1^:18446744073709551615" = .ok (.data "a:1^" 18446744073709551615) ∧
    InputRef.parse "a:1^:+007" = .ok (.data "a:1^" 7) := by
  obtain ⟨hcontrol, hdata, hcaret, hother, hdecimal⟩ := references_follow_grammar
  refine ⟨hother _ ?_, ?_, ?_⟩
  · intro ref h
    cases ref with
    | control name =>
      obtain ⟨hname, htext⟩ := (hcontrol _ _).mp h
      have hchars : ['^'] = '^' :: name.toList :=
        (congrArg String.toList htext).trans String.toList_append
      exact hname (String.toList_eq_nil_iff.mp (List.cons.inj hchars).2.symm)
    | data name output => exact hcaret _ _ _ (by decide) h
  · exact hdecimal "a:1^" 18446744073709551615 (by decide) (by decide) (by decide)
  · rw [hdata _ _ _ (by decide)]
    refine .inr ⟨"+007", InputRef.eq_append_colon_iff.mpr (by decide), by decide, by decide, ?_⟩
    have hdenotes : Text.Denotes ['0', '0', '7'] 7 := ⟨by decide, by simp, rfl⟩
    exact ⟨by decide, _, .inr (by decide), hdenotes⟩

end GraphLowering
