import Mathlib.Data.List.Nodup
import Mathlib.Data.List.Perm.Subperm
import Mathlib.Logic.Function.Basic

/-!
# Slot ownership

Slots numbered below a bound, each either free or owned by exactly one owner.
Granting a free slot, taking one back and passing one on keep this.
-/

namespace OpenMk3
namespace Library

universe u

variable {owner : Type u}

/-- Every slot below `n` is free or has one owner, and no other slot is
owned. -/
structure Ownership (n : Nat) (owns : owner -> Option Nat) (free : Nat -> Prop) :
    Prop where
  unique : forall {o o' : owner} {i : Nat}, owns o = some i ->
    owns o' = some i -> o = o'
  owned_lt : forall {o : owner} {i : Nat}, owns o = some i -> i < n
  free_iff : forall i, free i <-> i < n ∧ forall o, owns o ≠ some i

namespace Ownership

variable {n : Nat} {owns : owner -> Option Nat} {free free' : Nat -> Prop}

theorem congr_free (h : Ownership n owns free)
    (hfree : forall i, free' i <-> free i) : Ownership n owns free' where
  unique := h.unique
  owned_lt := h.owned_lt
  free_iff i := (hfree i).trans (h.free_iff i)

/-- A slot below the bound is taken just when somebody owns it. -/
theorem not_free_iff (h : Ownership n owns free) {i : Nat} (hi : i < n) :
    Not (free i) <-> exists o, owns o = some i := by
  rw [h.free_iff i]
  constructor
  · intro hnot
    by_contra hnone
    exact hnot ⟨hi, fun o ho => hnone ⟨o, ho⟩⟩
  · intro howned hfree
    rcases howned with ⟨o, ho⟩
    exact hfree.right o ho

/-- Distinct owners hold distinct slots, so there are at most `n` of them. -/
theorem length_le (h : Ownership n owns free) {owners : List owner}
    (hnodup : owners.Nodup)
    (howns : forall o, o ∈ owners -> (owns o).isSome = true) :
    owners.length ≤ n := by
  have hslots : (owners.map fun o => (owns o).getD n).Nodup := by
    apply hnodup.map_on
    intro o ho o' ho' heq
    rcases Option.isSome_iff_exists.mp (howns o ho) with ⟨i, hi⟩
    rcases Option.isSome_iff_exists.mp (howns o' ho') with ⟨i', hi'⟩
    rw [hi, hi', Option.getD_some, Option.getD_some] at heq
    exact h.unique hi (heq ▸ hi')
  have hsub : (owners.map fun o => (owns o).getD n) ⊆ List.range n := by
    intro i hi
    rcases List.mem_map.mp hi with ⟨o, ho, rfl⟩
    rcases Option.isSome_iff_exists.mp (howns o ho) with ⟨j, hj⟩
    rw [hj, Option.getD_some, List.mem_range]
    exact h.owned_lt hj
  simpa using (hslots.subperm hsub).length_le

variable [DecidableEq owner]

theorem update_some_iff {o a : owner} {i j : Nat} :
    Function.update owns o (some i) a = some j <->
      a = o ∧ j = i ∨ a ≠ o ∧ owns a = some j := by
  by_cases hao : a = o
  · simp [hao, eq_comm]
  · simp [hao]

theorem update_none_iff {o a : owner} {j : Nat} :
    Function.update owns o none a = some j <-> a ≠ o ∧ owns a = some j := by
  by_cases hao : a = o
  · simp [hao]
  · simp [hao]

/-- Grant a free slot to an owner without one. -/
theorem grant (h : Ownership n owns free) {o : owner} {i : Nat}
    (ho : owns o = none) (hi : free i) :
    Ownership n (Function.update owns o (some i)) (fun j => free j ∧ j ≠ i) where
  unique := by
    intro a b j ha hb
    have hnot := ((h.free_iff i).mp hi).right
    rcases update_some_iff.mp ha with ⟨rfl, rfl⟩ | ⟨_, hold⟩
    · rcases update_some_iff.mp hb with ⟨rfl, _⟩ | ⟨_, hold'⟩
      · rfl
      · exact absurd hold' (hnot b)
    · rcases update_some_iff.mp hb with ⟨_, rfl⟩ | ⟨_, hold'⟩
      · exact absurd hold (hnot a)
      · exact h.unique hold hold'
  owned_lt := by
    intro a j ha
    rcases update_some_iff.mp ha with ⟨_, rfl⟩ | ⟨_, ha⟩
    · exact ((h.free_iff _).mp hi).left
    · exact h.owned_lt ha
  free_iff := by
    intro j
    rw [h.free_iff j]
    constructor
    · intro hj
      refine ⟨hj.left.left, ?_⟩
      intro a ha
      rcases update_some_iff.mp ha with ⟨_, heq⟩ | ⟨_, ha⟩
      · exact hj.right heq
      · exact hj.left.right a ha
    · intro hj
      refine ⟨⟨hj.left, ?_⟩, ?_⟩
      · intro a ha
        have hao : a ≠ o := by
          intro heq
          rw [heq, ho] at ha
          cases ha
        exact hj.right a (update_some_iff.mpr (Or.inr ⟨hao, ha⟩))
      · intro heq
        exact hj.right o (update_some_iff.mpr (Or.inl ⟨rfl, heq⟩))

/-- Take the slot of an owner back. -/
theorem giveBack (h : Ownership n owns free) {o : owner} {i : Nat}
    (ho : owns o = some i) :
    Ownership n (Function.update owns o none) (fun j => free j ∨ j = i) where
  unique := by
    intro a b j ha hb
    exact h.unique (update_none_iff.mp ha).right (update_none_iff.mp hb).right
  owned_lt := by
    intro a j ha
    exact h.owned_lt (update_none_iff.mp ha).right
  free_iff := by
    intro j
    rw [h.free_iff j]
    constructor
    · intro hj
      rcases hj with hj | rfl
      · exact ⟨hj.left, fun a ha => hj.right a (update_none_iff.mp ha).right⟩
      · refine ⟨h.owned_lt ho, ?_⟩
        intro a ha
        rcases update_none_iff.mp ha with ⟨hao, ha⟩
        exact hao (h.unique ha ho)
    · intro hj
      by_cases heq : j = i
      · exact Or.inr heq
      · refine Or.inl ⟨hj.left, ?_⟩
        intro a ha
        have hao : a ≠ o := by
          intro hao
          rw [hao, ho] at ha
          cases ha
          exact heq rfl
        exact hj.right a (update_none_iff.mpr ⟨hao, ha⟩)

/-- Pass the slot of one owner on to another without one. -/
theorem transfer (h : Ownership n owns free) {o o' : owner} {i : Nat}
    (ho : owns o = some i) (ho' : owns o' = none) :
    Ownership n
      (Function.update (Function.update owns o none) o' (some i)) free := by
  have hne : o' ≠ o := by
    intro heq
    rw [heq, ho] at ho'
    cases ho'
  have hback := h.giveBack ho
  have hgrant := hback.grant (o := o') (i := i)
    (by rw [Function.update_of_ne hne, ho']) (Or.inr rfl)
  have hnot : Not (free i) := fun hi => ((h.free_iff i).mp hi).right o ho
  apply hgrant.congr_free
  intro j
  constructor
  · intro hj
    exact ⟨Or.inl hj, fun heq => hnot (heq ▸ hj)⟩
  · intro hj
    exact hj.left.resolve_right hj.right

end Ownership

end Library
end OpenMk3
