import Mathlib
import GraphLowering.Step

/-!
# Running steps and folds

How a step that starts with another one runs, and how a fold of failing steps over a list runs:

* `Step.bind_of_ok`, `Step.bind_of_error` — a step after one that succeeds, or fails.
* `Step.lift_bind_of_ok`, `Step.lift_bind_congr` — steps after a computation without a state.
* `Step.bind_eq_ok`, `Step.lift_bind_eq_ok` — what a step that succeeds has gone through.
* `Step.forM_cases` — a step for each entry of a list, up to the end or to the first that fails.
* `foldlM_ok_induct`, `foldlM_ok_run` — what every step keeps holds at the end of a fold that
  succeeds.
* `foldlM_map_run`, `foldlM_congr_run` — folds whose steps agree where they are made agree.
* `foldlM_agree_run` — the same, but for steps that fail.
* `foldlM_error_split` — a fold that fails does so at one entry, behind a fold that succeeds.
* `foldlM_ok_of_step` — a fold succeeds if every step does from the states it can meet.
-/

namespace GraphLowering

namespace Step

variable {σ α β : Type} {s s' : σ}

theorem bind_of_ok {m : Step σ α} {f : α → Step σ β} {a : α} (h : m s = .ok a s') :
    (m >>= f) s = f a s' := by
  show EStateM.bind m f s = f a s'
  rw [EStateM.bind, h]

theorem bind_of_error {m : Step σ α} {f : α → Step σ β} {e : Error} (h : m s = .error e s') :
    (m >>= f) s = .error e s' := by
  show EStateM.bind m f s = .error e s'
  rw [EStateM.bind, h]

theorem discard_of_ok {m : Step σ α} {a : α} (h : m s = .ok a s') :
    (discard m : Step σ Unit) s = .ok () s' := by
  show EStateM.map _ m s = .ok () s'
  rw [EStateM.map, h]

theorem discard_of_error {m : Step σ α} {e : Error} (h : m s = .error e s') :
    (discard m : Step σ Unit) s = .error e s' := by
  show EStateM.map _ m s = .error e s'
  rw [EStateM.map, h]

theorem get_apply (s : σ) : (get : Step σ σ) s = .ok s s := rfl

theorem throw_apply (e : Error) (s : σ) : (throw e : Step σ α) s = .error e s := rfl

theorem bind_eq_ok {m : Step σ α} {f : α → Step σ β} {b : β} :
    (m >>= f) s = .ok b s' ↔ ∃ a t, m s = .ok a t ∧ f a t = .ok b s' := by
  cases hm : m s with
  | ok a t => simp [bind_of_ok hm]
  | error e t => simp [bind_of_error hm]

theorem lift_eq_ok {x : Except Error α} {a : α} :
    (liftM x : Step σ α) s = .ok a s' ↔ x = .ok a ∧ s' = s := by
  cases x with
  | ok a' =>
    show EStateM.Result.ok a' s = .ok a s' ↔ _
    simp [eq_comm]
  | error e =>
    show EStateM.Result.error e s = .ok a s' ↔ _
    simp

/-- A computation without a state, before a step that goes on with its result. -/
theorem lift_bind_eq_ok {x : Except Error α} {f : α → Step σ β} {b : β} :
    ((liftM x : Step σ α) >>= f) s = .ok b s' ↔ ∃ a, x = .ok a ∧ f a s = .ok b s' := by
  rw [bind_eq_ok]
  constructor
  · rintro ⟨a, t, hlift, h⟩
    obtain ⟨hx, rfl⟩ := lift_eq_ok.mp hlift
    exact ⟨a, hx, h⟩
  · rintro ⟨a, hx, h⟩
    exact ⟨a, s, lift_eq_ok.mpr ⟨hx, rfl⟩, h⟩

theorem lift_bind_of_ok {x : Except Error α} {f : α → Step σ β} {a : α} (h : x = .ok a) :
    ((liftM x : Step σ α) >>= f) s = f a s :=
  bind_of_ok (lift_eq_ok.mpr ⟨h, rfl⟩)

theorem lift_bind_congr {x : Except Error α} {f f' : α → Step σ β}
    (h : ∀ a, x = .ok a → f a = f' a) :
    ((liftM x : Step σ α) >>= f) = ((liftM x : Step σ α) >>= f') := by
  cases x with
  | ok a => exact h a rfl
  | error e => rfl

/-- Steps for the entries of a list keep an invariant up to the end, or up to one that fails. -/
theorem forM_cases {f : α → Step σ Unit} (Inv : List α → σ → Prop) (Fails : Error → Prop)
    {l : List α} (start : Inv [] s)
    (step : ∀ done x rest t, l = done ++ x :: rest → Inv done t →
      (∃ t', f x t = .ok () t' ∧ Inv (done ++ [x]) t') ∨ ∃ e t', f x t = .error e t' ∧ Fails e) :
    (∃ t, l.forM f s = .ok () t ∧ Inv l t) ∨ ∃ e t, l.forM f s = .error e t ∧ Fails e := by
  have main : ∀ rest done t, l = done ++ rest → Inv done t →
      (∃ t', rest.forM f t = .ok () t' ∧ Inv l t') ∨
        ∃ e t', rest.forM f t = .error e t' ∧ Fails e := by
    intro rest
    induction rest with
    | nil =>
      intro done t hl ht
      rw [List.append_nil] at hl
      exact .inl ⟨t, rfl, hl ▸ ht⟩
    | cons x rest ih =>
      intro done t hl ht
      obtain ⟨t', hx, ht'⟩ | ⟨e, t', hx, he⟩ := step done x rest t hl ht
      · have hrest : (x :: rest).forM f t = rest.forM f t' := bind_of_ok hx
        rw [hrest]
        exact ih (done ++ [x]) t' (by rw [hl, List.append_assoc]; rfl) ht'
      · exact .inr ⟨e, t', bind_of_error hx, he⟩
  exact main l [] s rfl start

end Step

/-! ### Computations that may fail -/

section Except

variable {ε α β : Type}

theorem except_ok_bind (a : α) (f : α → Except ε β) : (Except.ok a >>= f) = f a := rfl

@[simp] theorem except_pure_eq (a : α) : (pure a : Except ε α) = .ok a := rfl

theorem except_bind_eq_ok {m : Except ε α} {f : α → Except ε β} {b : β} :
    (m >>= f) = .ok b ↔ ∃ a, m = .ok a ∧ f a = .ok b := by
  cases m with
  | error e => simp [bind, Except.bind]
  | ok a => simp [bind, Except.bind]

theorem except_bind_eq_error {m : Except ε α} {f : α → Except ε β} {e : ε} :
    (m >>= f) = .error e ↔ m = .error e ∨ ∃ a, m = .ok a ∧ f a = .error e := by
  cases m with
  | error e' => simp [bind, Except.bind]
  | ok a => simp [bind, Except.bind]

theorem exists_forall₂_iff {R : α → β → Prop} {l : List α} :
    (∃ r, List.Forall₂ R l r) ↔ ∀ a ∈ l, ∃ b, R a b := by
  induction l with
  | nil => simp
  | cons a l ih =>
    rw [List.forall_mem_cons, ← ih]
    constructor
    · rintro ⟨_, hr⟩
      obtain ⟨b, rest, hb, hrest, rfl⟩ := List.forall₂_cons_left_iff.mp hr
      exact ⟨⟨b, hb⟩, rest, hrest⟩
    · rintro ⟨⟨b, hb⟩, rest, hrest⟩
      exact ⟨b :: rest, .cons hb hrest⟩

/-- A list of computations succeeds with the results of its members. -/
theorem except_mapM_eq_ok {f : α → Except ε β} {l : List α} {r : List β} :
    l.mapM f = .ok r ↔ List.Forall₂ (fun a b => f a = .ok b) l r := by
  induction l generalizing r with
  | nil =>
    rw [List.mapM_nil, List.forall₂_nil_left_iff]
    show Except.ok [] = Except.ok r ↔ r = []
    rw [Except.ok.injEq, eq_comm]
  | cons a l ih =>
    rw [List.mapM_cons, except_bind_eq_ok, List.forall₂_cons_left_iff]
    constructor
    · rintro ⟨b, hb, h⟩
      obtain ⟨bs, hbs, h⟩ := except_bind_eq_ok.mp h
      exact ⟨b, bs, hb, ih.mp hbs, (Except.ok.inj h).symm⟩
    · rintro ⟨b, bs, hb, hbs, rfl⟩
      exact ⟨b, hb, except_bind_eq_ok.mpr ⟨bs, ih.mpr hbs, rfl⟩⟩

theorem exists_except_mapM {f : α → Except ε β} {l : List α} (h : ∀ a ∈ l, ∃ b, f a = .ok b) :
    ∃ r, l.mapM f = .ok r := by
  obtain ⟨r, hr⟩ := exists_forall₂_iff.mpr h
  exact ⟨r, except_mapM_eq_ok.mpr hr⟩

/-- A list of computations without a cause of failure succeeds with the results of its members. -/
theorem option_mapM_eq_some {f : α → Option β} {l : List α} {r : List β} :
    l.mapM f = some r ↔ List.Forall₂ (fun a b => f a = some b) l r := by
  induction l generalizing r with
  | nil =>
    rw [List.mapM_nil, List.forall₂_nil_left_iff]
    show some [] = some r ↔ r = []
    rw [Option.some.injEq, eq_comm]
  | cons a l ih =>
    rw [List.mapM_cons, Option.bind_eq_bind, Option.bind_eq_some_iff, List.forall₂_cons_left_iff]
    constructor
    · rintro ⟨b, hb, h⟩
      obtain ⟨bs, hbs, h⟩ := Option.bind_eq_some_iff.mp h
      exact ⟨b, bs, hb, ih.mp hbs, (Option.some.inj h).symm⟩
    · rintro ⟨b, bs, hb, hbs, rfl⟩
      exact ⟨b, hb, Option.bind_eq_some_iff.mpr ⟨bs, ih.mpr hbs, rfl⟩⟩

/-- A list of computations fails because one of them does. -/
theorem except_mapM_error {f : α → Except ε β} {l : List α} {e : ε} (h : l.mapM f = .error e) :
    ∃ a ∈ l, f a = .error e := by
  induction l with
  | nil => exact absurd h (by simp [pure, Except.pure])
  | cons a l ih =>
    rw [List.mapM_cons] at h
    obtain h | ⟨b, -, h⟩ := except_bind_eq_error.mp h
    · exact ⟨a, List.mem_cons_self, h⟩
    · obtain h | ⟨bs, -, h⟩ := except_bind_eq_error.mp h
      · obtain ⟨c, hc, herror⟩ := ih h
        exact ⟨c, List.mem_cons_of_mem _ hc, herror⟩
      · exact absurd h (by simp [pure, Except.pure])

theorem forall₂_getElem? {R : α → β → Prop} {l : List α} {r : List β} (h : List.Forall₂ R l r)
    (i : Nat) : Option.Rel R l[i]? r[i]? := by
  induction h generalizing i with
  | nil => exact .none
  | cons hab _ ih =>
    cases i with
    | zero => exact .some hab
    | succ i => exact ih i

theorem forall₂_exists_right {R : α → β → Prop} {l : List α} {r : List β} {a : α}
    (h : List.Forall₂ R l r) (ha : a ∈ l) : ∃ b ∈ r, R a b := by
  induction h with
  | nil => exact absurd ha List.not_mem_nil
  | cons hab _ ih =>
    obtain rfl | ha := List.mem_cons.mp ha
    · exact ⟨_, List.mem_cons_self, hab⟩
    · obtain ⟨b, hb, hab⟩ := ih ha
      exact ⟨b, List.mem_cons_of_mem _ hb, hab⟩

theorem forall₂_exists_left {R : α → β → Prop} {l : List α} {r : List β} {b : β}
    (h : List.Forall₂ R l r) (hb : b ∈ r) : ∃ a ∈ l, R a b :=
  forall₂_exists_right h.flip hb

end Except

/-! ### Folds that may fail -/

section Folds

/-- In a list without repetitions the front does not hold the entry behind it. -/
theorem not_mem_front {α : Type} {l done rest : List α} {x : α} (hnodup : l.Nodup)
    (hsplit : l = done ++ x :: rest) : x ∉ done := by
  intro hx
  rw [hsplit] at hnodup
  exact (List.nodup_append.mp hnodup).2.2 x hx x List.mem_cons_self rfl

variable {ε α β : Type} {f : β → α → Except ε β}

/-- What holds at the start and is kept by every step holds at the end of a fold that succeeds. -/
theorem foldlM_ok_induct (Inv : List α → β → Prop) {l : List α} {b c : β} (start : Inv [] b)
    (step : ∀ done x rest s s', l = done ++ x :: rest → Inv done s → f s x = .ok s' →
      Inv (done ++ [x]) s')
    (h : l.foldlM f b = .ok c) : Inv l c := by
  -- The invariant is carried over the entries already passed, so the list is split in two.
  have main : ∀ rest done s, l = done ++ rest → Inv done s → rest.foldlM f s = .ok c → Inv l c := by
    intro rest
    induction rest with
    | nil =>
      intro done s hl hs hc
      cases hc
      rw [hl, List.append_nil]
      exact hs
    | cons x rest ih =>
      intro done s hl hs hc
      rw [List.foldlM_cons] at hc
      obtain ⟨s', hx, hc⟩ := except_bind_eq_ok.mp hc
      exact ih (done ++ [x]) s' (by rw [hl]; simp) (step done x rest s s' hl hs hx) hc
  exact main l [] b rfl start h

/-- The same, where a step may look at the fold that has led to its state. -/
theorem foldlM_ok_run (Inv : List α → β → Prop) {l : List α} {b c : β} (start : Inv [] b)
    (step : ∀ done x rest s s', l = done ++ x :: rest → done.foldlM f b = .ok s → Inv done s →
      f s x = .ok s' → Inv (done ++ [x]) s')
    (h : l.foldlM f b = .ok c) : Inv l c := by
  have hboth := foldlM_ok_induct (fun done s => done.foldlM f b = .ok s ∧ Inv done s)
    ⟨rfl, start⟩ ?_ h
  · exact hboth.2
  · rintro done x rest s s' hl ⟨hrun, hs⟩ hx
    refine ⟨?_, step done x rest s s' hl hrun hs hx⟩
    rw [List.foldlM_append, hrun]
    show List.foldlM f s [x] = .ok s'
    rw [List.foldlM_cons, hx]
    rfl

/-- Folds of two steps that agree up to `view` in every state that the first fold meets agree up to
`view`. -/
theorem foldlM_map_run {γ : Type} {f' : γ → α → Except ε γ} (view : β → γ) {l : List α} {b : β}
    (step : ∀ done x rest s, l = done ++ x :: rest → done.foldlM f b = .ok s →
      f' (view s) x = (f s x).map view) :
    l.foldlM f' (view b) = (l.foldlM f b).map view := by
  induction l generalizing b with
  | nil => rfl
  | cons x l ih =>
    rw [List.foldlM_cons, List.foldlM_cons, step [] x l b rfl rfl]
    cases hx : f b x with
    | error e => rfl
    | ok s =>
      refine ih fun done y rest s' hl hrun => step (x :: done) y rest s' (by rw [hl]; rfl) ?_
      rw [List.foldlM_cons, hx]
      exact hrun

/-- Folds of two steps that agree in every state that the first fold meets are the same. -/
theorem foldlM_congr_run {f' : β → α → Except ε β} {l : List α} {b : β}
    (step : ∀ done x rest s, l = done ++ x :: rest → done.foldlM f b = .ok s → f s x = f' s x) :
    l.foldlM f b = l.foldlM f' b := by
  have hid : ∀ result : Except ε β, result.map id = result := by
    intro result
    cases result <;> rfl
  have hmap : l.foldlM f' (id b) = (l.foldlM f b).map id := by
    refine foldlM_map_run id fun done x rest s hl hrun => ?_
    rw [hid]
    exact (step done x rest s hl hrun).symm
  rw [hid] at hmap
  exact hmap.symm

/-- A fold that fails does so at one entry, and the entries before it make a fold that succeeds. -/
theorem foldlM_error_split {l : List α} {b : β} {e : ε} (h : l.foldlM f b = .error e) :
    ∃ done x rest s, l = done ++ x :: rest ∧ done.foldlM f b = .ok s ∧ f s x = .error e := by
  induction l generalizing b with
  | nil => cases h
  | cons x rest ih =>
    rw [List.foldlM_cons] at h
    rcases except_bind_eq_error.mp h with hx | ⟨s, hx, hrest⟩
    · exact ⟨[], x, rest, b, rfl, rfl, hx⟩
    · obtain ⟨done, y, rest', s', rfl, hdone, hy⟩ := ih hrest
      refine ⟨x :: done, y, rest', s', rfl, ?_, hy⟩
      rw [List.foldlM_cons, hx]
      exact hdone

/-- A fold succeeds if every step does from the states that the invariant allows. -/
theorem foldlM_ok_of_step (Inv : List α → β → Prop) {l : List α} {b : β} (start : Inv [] b)
    (step : ∀ done x rest s, l = done ++ x :: rest → Inv done s →
      ∃ s', f s x = .ok s' ∧ Inv (done ++ [x]) s') :
    ∃ c, l.foldlM f b = .ok c ∧ Inv l c := by
  have main : ∀ rest done s, l = done ++ rest → Inv done s →
      ∃ c, rest.foldlM f s = .ok c ∧ Inv l c := by
    intro rest
    induction rest with
    | nil =>
      intro done s hl hs
      refine ⟨s, rfl, ?_⟩
      rw [hl, List.append_nil]
      exact hs
    | cons x rest ih =>
      intro done s hl hs
      obtain ⟨s', hx, hs'⟩ := step done x rest s hl hs
      obtain ⟨c, hc, hl'⟩ := ih (done ++ [x]) s' (by rw [hl]; simp) hs'
      refine ⟨c, ?_, hl'⟩
      rw [List.foldlM_cons, hx]
      exact hc
  exact main l [] b rfl start

end Folds

end GraphLowering
