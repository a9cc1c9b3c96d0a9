import Mathlib
import GraphLowering.Proofs.Failure

/-!
# What a run can tell of its arguments

A run looks at the shapes of its arguments, and at the values of the flagged ones. Two runs that
cannot be told apart by these take the same steps, from the same states, to the same end.

* `Compiled.AlikeArguments` — arguments with the same shapes, and the same values where they are
  flagged.
* `addParameter_congr`, `lowerOp_congr` — a step is the same for arguments that are alike.
* `OpKind.rule_congr` — a rule is the same for known values that are the same on its static slots.
* `lowering_ignores_hidden_arguments` — a run ends in the same function or the same failure.
-/

namespace GraphLowering

open Source Target

/-- Enough arguments on both sides, with the same shape at every position of a parameter and the
same value at every flagged position. -/
structure Compiled.AlikeArguments (c : Compiled) (args args' : List Argument) : Prop where
  enough : c.parts.params.length ≤ args.length
  enough' : c.parts.params.length ≤ args'.length
  shape : ∀ k < c.parts.params.length, args[k]?.map (·.shape) = args'[k]?.map (·.shape)
  value : ∀ k, c.isStatic k = true → args[k]?.map (·.value) = args'[k]?.map (·.value)

/-! ### Parameters -/

theorem addParameter_congr {g : Source.Graph} {i k : Nat} {v : Source.Node}
    (hv : g.node? i = some v) (hk : position v = .ok k) {args args' : List Argument}
    (hlt : k < args.length) (hlt' : k < args'.length)
    (hshape : args[k]?.map (·.shape) = args'[k]?.map (·.shape)) (s : Run × List (Option Wire)) :
    addParameter g args s i = addParameter g args' s i := by
  have harg := List.getElem?_eq_getElem hlt
  have harg' := List.getElem?_eq_getElem hlt'
  rw [harg, harg'] at hshape
  have hsame : args[k].shape = args'[k].shape := Option.some.inj hshape
  simp only [addParameter, Graph.node_of_some hv, hk, harg, harg', hsame, except_ok_bind]

/-! ### Ops -/

/-- A value on a slot depends on the known values of arguments only. -/
theorem Context.staticInput_congr {v : Source.Node} {g : Source.Graph}
    {statics statics' : List (Option Tensor)}
    (h : ∀ k : Nat, statics[k]?.join = statics'[k]?.join) (slot : Nat) :
    (⟨v, g, statics⟩ : Context).staticInput slot =
      (⟨v, g, statics'⟩ : Context).staticInput slot := by
  have hvalue : ∀ index, (⟨v, g, statics⟩ : Context).argumentValue? index =
      (⟨v, g, statics'⟩ : Context).argumentValue? index := by
    intro index
    unfold argumentValue?
    rw [h]
  unfold staticInput
  simp only [hvalue]
  rfl

/-- Failures in contexts of one node are the same if the values on the static slots are. -/
theorem Context.Fails.eq {slots : Nat → Prop} {ctx ctx' : Context} {e e' : Error}
    (h : ctx.Fails slots ctx' e e') (hnode : ctx.node = ctx'.node)
    (hstatic : ∀ slot, slots slot → ctx.staticInput slot = ctx'.staticInput slot) : e = e' := by
  cases h with
  | refuse cause _ => rw [Context.refuse, Context.refuse, hnode]
  | missing key => rw [hnode]
  | kind key got expected => rw [hnode]
  | inputCount expected got => rw [hnode]
  | inputCountAtLeast least got => rw [hnode]
  | plain _ => rfl
  | static slot hslot he he' =>
    rw [hstatic slot hslot, he'] at he
    exact (Except.error.inj he).symm

theorem OutputsAlike.eq {P : Target.Graph → Prop} {hkept : KeptByAppend P} {h h' : Target.Graph}
    {outputs outputs' : Outputs}
    (halike : OutputsAlike (Simulation.keeping hkept) h h' outputs outputs') :
    outputs = outputs' := by
  refine List.forall₂_eq_eq_eq ▸ List.Forall₂.imp (fun o o' ho => ?_) halike
  cases ho with
  | some hw => rw [hw.1]
  | none => rfl

/-- A rule runs in the same way with known values that are the same on its static slots: it leaves
the same arena, with the same outputs or the same failure. -/
theorem OpKind.rule_congr {kind : OpKind} {ctx ctx' : Context} {ws : List Wire} {g : Target.Graph}
    (hnode : ctx.node = ctx'.node)
    (hstatic : ∀ slot, kind.staticSlots.contains ctx.node slot = true →
      ctx.staticInput slot = ctx'.staticInput slot)
    (hws : ∀ w ∈ ws, g.Has w) (hlength : ws.length = (kind.operandSlots.of ctx.node).length) :
    kind.rule ctx ws g = kind.rule ctx' ws g := by
  have agree : ctx.Agree (kind.staticSlots.contains ctx.node ·) ctx' := by
    refine ⟨by simp [hnode], by rw [hnode], by rw [hnode], fun slot hslot => ?_⟩
    rw [hstatic slot hslot]
    exact Paired.refl fun _ _ => trivial
  have htwin := OpKind.rule_twin_same hws hlength agree keptByAppend_true trivial
  generalize kind.rule ctx ws g = r at htwin
  generalize kind.rule ctx' ws g = r' at htwin
  cases htwin with
  | ok _ _ harenas hpost => rw [harenas.1, OutputsAlike.eq hpost]
  | error _ _ harenas hfails => rw [harenas.1, hfails.eq hnode hstatic]

theorem lowerOp_congr {g : Source.Graph} (wf : g.WellFormed) {i : Nat} {v : Source.Node}
    (hv : g.node? i = some v) {done : List Nat} {run : Run} (hcovers : Covers g done run)
    {statics statics' : List (Option Tensor)}
    (h : ∀ k : Nat, statics[k]?.join = statics'[k]?.join) :
    lowerOp g statics run i = lowerOp g statics' run i := by
  simp only [lowerOp, Graph.node_of_some hv, except_ok_bind]
  split
  · rfl
  case h_2 kind hkind =>
    cases hws : (kind.operandSlots.of v).mapM (resolveInput g run.outputs v) with
    | error e => rfl
    | ok ws =>
      have hrule : kind.rule ⟨v, g, statics⟩ ws run.target =
          kind.rule ⟨v, g, statics'⟩ ws run.target :=
        OpKind.rule_congr rfl (fun slot _ => Context.staticInput_congr h slot)
          (hcovers.has_of_mapM wf hv hws) (except_mapM_eq_ok.mp hws).length_eq.symm
      simp only [except_ok_bind, Run.emitting, hrule]

/-! ### Runs -/

/-- The values that lowering may look at are the same for arguments that are alike. -/
theorem Compiled.AlikeArguments.statics {c : Compiled} {args args' : List Argument}
    (halike : c.AlikeArguments args args') (k : Nat) :
    (c.statics args)[k]?.join = (c.statics args')[k]?.join := by
  rw [c.getElem?_statics, c.getElem?_statics]
  cases hflag : c.isStatic k with
  | true =>
    simp only [if_true]
    rw [halike.value k hflag]
  -- the values at other positions are masked, and missing ones count as masked
  | false =>
    cases args[k]? <;> cases args'[k]? <;> rfl

/-- **A run ignores what is hidden from it.** Arguments with the same shapes, and with the same
values at the flagged positions, give the same function or the same failure. -/
theorem lowering_ignores_hidden_arguments {g : Source.Graph} {c : Compiled}
    {args args' : List Argument} (hbuilt : g.Built) (hprepare : prepare g = .ok c)
    (halike : c.AlikeArguments args args') : c.lower args = c.lower args' := by
  have hc := prepared_of_prepare hbuilt.wellFormed hprepare
  have hparams : c.parts.params.foldlM (addParameter c.graph args)
        ({}, List.replicate c.parts.params.length none) =
      c.parts.params.foldlM (addParameter c.graph args')
        ({}, List.replicate c.parts.params.length none) := by
    refine foldlM_congr_run fun done i rest s hsplit _ => ?_
    obtain ⟨v, k, hv, hk, hlt⟩ := hc.param_position (i := i) (by simp [hsplit])
    exact addParameter_congr hv hk (hlt.trans_le halike.enough) (hlt.trans_le halike.enough')
      (halike.shape k hlt) s
  unfold Compiled.lower
  dsimp only
  rw [← hparams]
  cases hstart : c.parts.params.foldlM (addParameter c.graph args)
      ({}, List.replicate c.parts.params.length none) with
  | error e => rfl
  | ok start =>
    have hops : c.parts.ops.foldlM (lowerOp c.graph (c.statics args)) start.1 =
        c.parts.ops.foldlM (lowerOp c.graph (c.statics args')) start.1 := by
      refine foldlM_congr_run fun done i rest run hsplit hrun => ?_
      obtain ⟨v, hv⟩ := hc.node?_of_mem_ops (i := i) (by simp [hsplit])
      have hdone := hc.ops_done (hc.params_done hstart).covers hsplit hrun
      exact lowerOp_congr hc.wf hv hdone.covers halike.statics
    simp only [except_ok_bind, hops]

/-- The arguments differ in their declared types, in a value that nothing reads, and in number. -/
theorem argumentReshape_ignores_hidden :
    ∃ c f, prepare argumentReshape = .ok c ∧
      c.AlikeArguments [⟨.float, [2, 3], none⟩, ⟨.int64, [1], some ⟨[1], .i64 #[6], rfl⟩⟩]
        [⟨.int32, [2, 3], some ⟨[], .i64 #[0], rfl⟩⟩, ⟨.float, [1], some ⟨[1], .i64 #[6], rfl⟩⟩,
          ⟨.float, [-1], none⟩] ∧
      c.lower [⟨.float, [2, 3], none⟩, ⟨.int64, [1], some ⟨[1], .i64 #[6], rfl⟩⟩] = .ok f ∧
      c.lower [⟨.int32, [2, 3], some ⟨[], .i64 #[0], rfl⟩⟩,
        ⟨.float, [1], some ⟨[1], .i64 #[6], rfl⟩⟩, ⟨.float, [-1], none⟩] = .ok f := by
  have hprepare : prepare argumentReshape =
      .ok ⟨argumentReshape, ⟨[1, 0], [3], [2]⟩, [false, true]⟩ := by rfl
  have halike : (⟨argumentReshape, ⟨[1, 0], [3], [2]⟩, [false, true]⟩ : Compiled).AlikeArguments
      [⟨.float, [2, 3], none⟩, ⟨.int64, [1], some ⟨[1], .i64 #[6], rfl⟩⟩]
      [⟨.int32, [2, 3], some ⟨[], .i64 #[0], rfl⟩⟩, ⟨.float, [1], some ⟨[1], .i64 #[6], rfl⟩⟩,
        ⟨.float, [-1], none⟩] := by
    refine ⟨by decide, by decide, ?_, ?_⟩
    · intro k hk
      have hk : k < 2 := hk
      interval_cases k <;> rfl
    · intro k hflag
      match k with
      | 0 => exact absurd hflag Bool.false_ne_true
      | 1 => rfl
      | k + 2 => exact absurd hflag Bool.false_ne_true
  have hsame := lowering_ignores_hidden_arguments ⟨_, rfl⟩ hprepare halike
  exact ⟨_, _, hprepare, halike, rfl, hsame.symm.trans rfl⟩

end GraphLowering
