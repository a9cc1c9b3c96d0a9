import Mathlib

/-!
# Lists filled position by position

The parameters and the results of a function are collected in a list of empty slots. Each node puts
its wire at the position that it asks for, which has to be free. As many nodes as slots fill all of
them, whatever the order in which they come.

* `Filling` — the slots after some of the nodes have come.
* `Filling.set` — the step: one more node takes a free slot.
* `Filling.exists_of_lt` — as many nodes as slots leave none empty.
* `Filling.getElem?_filterMap` — nothing moves when the slots are read off.
* `Filling.perm` — the positions of the nodes are all positions, each once.
-/

namespace GraphLowering

/-- The slots after the nodes `done` have put a value at their positions. -/
structure Filling {α : Type} (position : Nat → Option Nat) (done : List Nat)
    (slots : List (Option α)) : Prop where
  filled : ∀ i ∈ done, ∃ k a, position i = some k ∧ slots[k]? = some (some a)
  origin : ∀ k a, slots[k]? = some (some a) → ∃ i ∈ done, position i = some k
  distinct : done.Pairwise fun i j => position i ≠ position j
  count : slots.countP Option.isSome = done.length

namespace Filling

variable {α : Type} {position : Nat → Option Nat} {done : List Nat} {slots : List (Option α)}

theorem empty (position : Nat → Option Nat) (n : Nat) :
    Filling position [] (List.replicate n (none : Option α)) where
  filled := by simp
  origin := by
    intro k a h
    rw [List.getElem?_replicate] at h
    split at h <;> simp at h
  distinct := List.Pairwise.nil
  count := by simp [List.countP_replicate]

/-- A value at a free slot leaves the filled ones alone. -/
theorem getElem?_set_of_filled {k k' : Nat} {a a' : α} (hfree : slots[k]? = some none)
    (h : slots[k']? = some (some a')) : (slots.set k (some a))[k']? = some (some a') := by
  have hne : k ≠ k' := by
    intro hk
    rw [hk, h] at hfree
    simp at hfree
  rw [List.getElem?_set_ne hne]
  exact h

theorem getElem?_set_free {k : Nat} {a : α} (hfree : slots[k]? = some none) :
    (slots.set k (some a))[k]? = some (some a) := by
  have hlt : k < slots.length := (List.getElem?_eq_some_iff.mp hfree).1
  rw [List.getElem?_set_self hlt]

theorem set (h : Filling position done slots) {i k : Nat} {a : α} (hi : position i = some k)
    (hfree : slots[k]? = some none) : Filling position (done ++ [i]) (slots.set k (some a)) where
  filled := by
    intro j hj
    obtain hj | rfl := List.mem_append.mp hj |>.imp_right List.mem_singleton.mp
    · obtain ⟨k', a', hk', ha'⟩ := h.filled j hj
      exact ⟨k', a', hk', getElem?_set_of_filled hfree ha'⟩
    · exact ⟨k, a, hi, getElem?_set_free hfree⟩
  origin := by
    intro k' a' h'
    by_cases hk : k = k'
    · exact ⟨i, by simp, hk ▸ hi⟩
    · rw [List.getElem?_set_ne hk] at h'
      obtain ⟨j, hj, hpos⟩ := h.origin k' a' h'
      exact ⟨j, List.mem_append_left _ hj, hpos⟩
  distinct := by
    refine List.pairwise_append.mpr ⟨h.distinct, List.pairwise_singleton _ _, ?_⟩
    intro j hj i' hi'
    rw [List.mem_singleton.mp hi', hi]
    intro hsame
    -- the slot of an earlier node is filled, and this one is free
    obtain ⟨k', a', hk', ha'⟩ := h.filled j hj
    obtain rfl : k' = k := Option.some.inj (hk'.symm.trans hsame)
    simp [hfree] at ha'
  count := by
    obtain ⟨hlt, hnone⟩ := List.getElem?_eq_some_iff.mp hfree
    rw [List.countP_set hlt, hnone, h.count, List.length_append]
    simp

/-- No two nodes have the same position. -/
theorem injective (h : Filling position done slots) {i j : Nat} (hi : i ∈ done) (hj : j ∈ done)
    (hsame : position i = position j) : i = j := by
  have hnodup : (done.map position).Nodup := List.pairwise_map.mpr h.distinct
  exact List.inj_on_of_nodup_map hnodup hi hj hsame

/-- The slot at a position that no node has is free. -/
theorem free (h : Filling position done slots) {k : Nat} (hk : k < slots.length)
    (hnew : ∀ j ∈ done, position j ≠ some k) : slots[k]? = some none := by
  cases hslot : slots[k] with
  | none => rw [List.getElem?_eq_getElem hk, hslot]
  | some a =>
    have hfilled : slots[k]? = some (some a) := by rw [List.getElem?_eq_getElem hk, hslot]
    obtain ⟨j, hj, hpos⟩ := h.origin k a hfilled
    exact absurd hpos (hnew j hj)

section Full

variable (h : Filling position done slots) (hfull : done.length = slots.length)
include h hfull

/-- As many nodes as slots leave no slot empty. -/
theorem exists_of_lt {k : Nat} (hk : k < slots.length) : ∃ a, slots[k]? = some (some a) := by
  have hall : ∀ slot ∈ slots, slot.isSome = true :=
    List.countP_eq_length.mp (h.count.trans hfull)
  obtain ⟨a, ha⟩ := Option.isSome_iff_exists.mp (hall slots[k] (List.getElem_mem hk))
  exact ⟨a, by rw [List.getElem?_eq_getElem hk, ha]⟩

theorem map_some_filterMap : (slots.filterMap id).map some = slots := by
  have hall : ∀ slot ∈ slots, slot.isSome = true :=
    List.countP_eq_length.mp (h.count.trans hfull)
  clear h hfull
  induction slots with
  | nil => rfl
  | cons slot slots ih =>
    obtain ⟨hslot, hrest⟩ := List.forall_mem_cons.mp hall
    obtain ⟨a, rfl⟩ := Option.isSome_iff_exists.mp hslot
    rw [List.filterMap_cons_some (a := some a) (b := a) rfl, List.map_cons, ih hrest]

/-- Nothing moves when the slots are read off. -/
theorem getElem?_filterMap {k : Nat} {a : α} :
    (slots.filterMap id)[k]? = some a ↔ slots[k]? = some (some a) := by
  conv_rhs => rw [← h.map_some_filterMap hfull]
  rw [List.getElem?_map, Option.map_eq_some_iff]
  simp

theorem length_filterMap : (slots.filterMap id).length = done.length := by
  have hmap := congrArg List.length (h.map_some_filterMap hfull)
  rw [List.length_map] at hmap
  rw [hmap, hfull]

/-- The positions of the nodes are all positions, each once. -/
theorem perm : (done.map position).Perm ((List.range slots.length).map some) := by
  have hnodup : (done.map position).Nodup := List.pairwise_map.mpr h.distinct
  have hrange : ((List.range slots.length).map some).Nodup :=
    List.nodup_range.map (Option.some_injective _)
  refine (List.perm_ext_iff_of_nodup hnodup hrange).mpr fun place => ?_
  rw [List.mem_map, List.mem_map]
  constructor
  · rintro ⟨i, hi, rfl⟩
    obtain ⟨k, a, hk, ha⟩ := h.filled i hi
    exact ⟨k, List.mem_range.mpr (List.getElem?_eq_some_iff.mp ha).1, hk.symm⟩
  · rintro ⟨k, hk, rfl⟩
    obtain ⟨a, ha⟩ := h.exists_of_lt hfull (List.mem_range.mp hk)
    exact h.origin k a ha

end Full

end Filling

end GraphLowering
