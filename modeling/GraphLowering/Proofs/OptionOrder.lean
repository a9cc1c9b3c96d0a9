import Mathlib
import GraphLowering.CommandLine
import GraphLowering.Proofs.Step

/-!
# The order of options

The words of a request are a path and groups of an option and its value. The reader goes through
them once, and each group adds to its own part of what has been read so far. So the request depends
on the order of the shapes among themselves and of the static values among themselves, but not on
how the groups and the path are mixed.

* `Interleaves` — words that mix a path, shapes and static values.
* `readOptions_input`, `readOptions_static`, `readOptions_path` — what one group adds.
* `Interleaves.readOptions_eq` — what all groups add.
* `lookup_reverse` — the last value that is given for a position is the one that counts.
* `options_commute` — any two mixtures of the same groups are the same request.
-/

namespace GraphLowering

/-! ### Mixtures of groups -/

/-- The words that are read as an option wherever a path may stand. -/
def optionWords : List String := ["--input", "-i", "--static", "-s", "--help", "-h"]

/-- The words mix a path, if there is one, the values of shape options and the values of static
options, where each value stands behind its option and the values of an option are in order. -/
inductive Interleaves : Option String → List String → List String → List String → Prop where
  | nil : Interleaves none [] [] []
  | path {path : String} {inputs statics words : List String}
      (h : Interleaves none inputs statics words) :
    Interleaves (some path) inputs statics (path :: words)
  | input {path? : Option String} {inputs statics words : List String} {option value : String}
      (hoption : option = "--input" ∨ option = "-i")
      (h : Interleaves path? inputs statics words) :
    Interleaves path? (value :: inputs) statics (option :: value :: words)
  | static {path? : Option String} {inputs statics words : List String} {option value : String}
      (hoption : option = "--static" ∨ option = "-s")
      (h : Interleaves path? inputs statics words) :
    Interleaves path? inputs (value :: statics) (option :: value :: words)

/-! ### What one group adds -/

variable {option value path : String} {words : List String} {options : Options}

theorem readOptions_input {shape : List Int} (hoption : option = "--input" ∨ option = "-i")
    (hvalue : shapeOption? value = some shape) :
    readOptions (option :: value :: words) options =
      readOptions words { options with shapes := options.shapes ++ [shape] } := by
  rw [readOptions, if_pos hoption, hvalue]

theorem readOptions_static {entry : Nat × List Int} (hoption : option = "--static" ∨ option = "-s")
    (hvalue : staticOption? value = some entry) :
    readOptions (option :: value :: words) options =
      readOptions words { options with statics := entry :: options.statics } := by
  have hinput : ¬ (option = "--input" ∨ option = "-i") := by
    obtain rfl | rfl := hoption <;> decide
  rw [readOptions, if_neg hinput, if_pos hoption, hvalue]

theorem readOptions_path (hpath : path ∉ optionWords) (hfree : options.path = none) :
    readOptions (path :: words) options =
      readOptions words { options with path := some path } := by
  simp only [optionWords, List.mem_cons, List.not_mem_nil, or_false, not_or] at hpath
  obtain ⟨hinput, hinput', hstatic, hstatic', hhelp, hhelp'⟩ := hpath
  rw [readOptions.eq_def]
  dsimp only
  rw [if_neg (not_or.mpr ⟨hinput, hinput'⟩), if_neg (not_or.mpr ⟨hstatic, hstatic'⟩),
    if_neg (not_or.mpr ⟨hhelp, hhelp'⟩), hfree]
  rfl

/-! ### What all groups add -/

/-- Groups that can be read add their shapes at the end, their static values at the front, and the
path in a place that is still free. -/
theorem Interleaves.readOptions_eq {path? : Option String} {inputs statics : List String}
    {shapes : List (List Int)} {entries : List (Nat × List Int)}
    (h : Interleaves path? inputs statics words) (options : Options)
    (hpath : ∀ path ∈ path?, path ∉ optionWords)
    (hshapes : List.Forall₂ (fun value shape => shapeOption? value = some shape) inputs shapes)
    (hentries : List.Forall₂ (fun value entry => staticOption? value = some entry) statics entries)
    (hfree : path?.isSome → options.path = none) :
    readOptions words options =
      readOptions []
        { path := path?.or options.path
          shapes := options.shapes ++ shapes
          statics := entries.reverse ++ options.statics } := by
  -- each group changes what has been read before the others, which is therefore anything
  induction h generalizing shapes entries options with
  | nil =>
    obtain rfl := List.forall₂_nil_left_iff.mp hshapes
    obtain rfl := List.forall₂_nil_left_iff.mp hentries
    simp
  | @path path inputs statics words h ih =>
    rw [readOptions_path (hpath path rfl) (hfree rfl), ih _ nofun hshapes hentries nofun]
    simp
  | input hoption h ih =>
    obtain ⟨shape, rest, hvalue, hrest, rfl⟩ := List.forall₂_cons_left_iff.mp hshapes
    rw [readOptions_input hoption hvalue,
      ih { options with shapes := options.shapes ++ [shape] } hpath hrest hentries hfree]
    simp
  | static hoption h ih =>
    obtain ⟨entry, rest, hvalue, hrest, rfl⟩ := List.forall₂_cons_left_iff.mp hentries
    rw [readOptions_static hoption hvalue,
      ih { options with statics := entry :: options.statics } hpath hshapes hrest hfree]
    simp

/-- A mixture of groups that can be read is a request. -/
theorem Interleaves.ofWords_eq {inputs statics : List String} {shapes : List (List Int)}
    {entries : List (Nat × List Int)} (h : Interleaves (some path) inputs statics words)
    (hpath : path ∉ optionWords)
    (hshapes : List.Forall₂ (fun value shape => shapeOption? value = some shape) inputs shapes)
    (hentries :
      List.Forall₂ (fun value entry => staticOption? value = some entry) statics entries) :
    Command.ofWords ("translate" :: words) = .lower ⟨path, shapes, entries.reverse⟩ := by
  have hread := h.readOptions_eq {} (by simpa using hpath) hshapes hentries (fun _ => rfl)
  rw [List.append_nil] at hread
  exact hread

/-! ### The static table -/

/-- The last value that entries give for a position. -/
def lastValue (entries : List (Nat × List Int)) (index : Nat) : Option (List Int) :=
  (entries.filterMap fun entry => if index = entry.1 then some entry.2 else none).getLast?

/-- The table that a request keeps, with the latest entries first, holds the last value of each
position. -/
theorem lookup_reverse (entries : List (Nat × List Int)) (index : Nat) :
    entries.reverse.lookup index = lastValue entries index := by
  simp only [List.lookup_eq_findSome?, lastValue, List.getLast?_filterMap, beq_iff_eq]

/-- Each argument takes the last value of its position. -/
theorem Request.arguments_eq_mapIdx (request : Request) (g : Source.Graph)
    {entries : List (Nat × List Int)} (h : request.statics = entries.reverse) :
    request.arguments g = request.shapes.mapIdx fun index shape =>
      { type := argumentType g index
        shape
        value := (lastValue entries index).map (staticVector (argumentType g index)) } := by
  rw [List.mapIdx_eq_zipIdx_map, Request.arguments, h]
  simp only [lookup_reverse]

/-! ### Mixtures are one request -/

/-- **Options commute.** Any two mixtures of a path, shapes and static values, each with the shapes
in the same order and with the static values in the same order, make the same request: the path, the
shapes, and for each position the last value that is given for it. So the arguments of the run are
the same, with the last value of its position in each of them, and whatever is read at the path, a
text or a failure, the same function is printed or the same error reported. So it is among any known
files. -/
theorem options_commute {inputs statics words words' : List String} {shapes : List (List Int)}
    {entries : List (Nat × List Int)} (hpath : path ∉ optionWords)
    (hinputs : inputs.mapM shapeOption? = some shapes)
    (hstatics : statics.mapM staticOption? = some entries)
    (hwords : Interleaves (some path) inputs statics words)
    (hwords' : Interleaves (some path) inputs statics words') :
    (∃ request : Request,
      Command.ofWords ("translate" :: words) = .lower request ∧
      Command.ofWords ("translate" :: words') = .lower request ∧
      request.path = path ∧ request.shapes = shapes ∧
      (∀ index, request.statics.lookup index = lastValue entries index) ∧
      ∀ g, request.arguments g = shapes.mapIdx fun index shape =>
        { type := argumentType g index
          shape
          value := (lastValue entries index).map (staticVector (argumentType g index)) }) ∧
    (∀ document : Except String String,
      (Command.ofWords ("translate" :: words)).report document =
        (Command.ofWords ("translate" :: words')).report document) ∧
    ∀ fs : FileSystem, fs.report ("translate" :: words) = fs.report ("translate" :: words') := by
  have hshapes := option_mapM_eq_some.mp hinputs
  have hentries := option_mapM_eq_some.mp hstatics
  have hread := hwords.ofWords_eq hpath hshapes hentries
  have hread' := hwords'.ofWords_eq hpath hshapes hentries
  refine ⟨⟨⟨path, shapes, entries.reverse⟩, hread, hread', rfl, rfl, ?_, ?_⟩, ?_, ?_⟩
  · intro index
    exact lookup_reverse entries index
  · intro g
    exact Request.arguments_eq_mapIdx _ g rfl
  · intro document
    rw [hread, hread']
  · intro fs
    unfold FileSystem.report
    rw [hread, hread']

/-- Shapes and static values before and behind the path, with a position that is given twice. -/
theorem options_commute_scattered :
    (∃ request : Request,
      Command.ofWords ["translate", "-i", "2x6", "--static", "1=3,-1", "g.json", "-s", "1= 4",
        "--input", "scalar"] = .lower request ∧
      Command.ofWords ["translate", "-s", "1=3,-1", "-s", "1= 4", "--input", "2x6", "--input",
        "scalar", "g.json"] = .lower request ∧
      request.path = "g.json" ∧ request.shapes = [[2, 6], []] ∧
      request.statics.lookup 1 = some [4]) ∧
    ∀ document : Except String String,
      (Command.ofWords ["translate", "-i", "2x6", "--static", "1=3,-1", "g.json", "-s", "1= 4",
        "--input", "scalar"]).report document =
      (Command.ofWords ["translate", "-s", "1=3,-1", "-s", "1= 4", "--input", "2x6", "--input",
        "scalar", "g.json"]).report document := by
  have hpath : "g.json" ∉ optionWords := by decide
  have hinputs : ["2x6", "scalar"].mapM shapeOption? = some [[2, 6], []] := rfl
  have hstatics : ["1=3,-1", "1= 4"].mapM staticOption? = some [(1, [3, -1]), (1, [4])] := rfl
  obtain ⟨⟨request, hread, hread', hrequest, hshapes, hlast, -⟩, hreport, -⟩ :=
    options_commute hpath hinputs hstatics
      (.input (.inr rfl) (.static (.inl rfl) (.path (.static (.inr rfl) (.input (.inl rfl) .nil)))))
      (.static (.inr rfl) (.static (.inr rfl) (.input (.inl rfl) (.input (.inl rfl) (.path .nil)))))
  exact ⟨⟨request, hread, hread', hrequest, hshapes, hlast 1⟩, hreport⟩

end GraphLowering
