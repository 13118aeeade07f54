import Mathlib.Data.List.Basic

/-!
# Sorted rows up to a limit

The first rows of a list, as `LIMIT` keeps them.  Of sorted rows the ones that
are cut off come after all that are kept, and only a full result cuts any off.
-/

namespace OpenMk3
namespace Library

universe u

variable {α : Type u} {le : α -> α -> Prop} {rows : List α} {x y : α}

/-- The first rows, or all of them without a limit. -/
def limited (limit : Option Nat) (rows : List α) : List α :=
  match limit with
  | none => rows
  | some n => rows.take n

theorem limited_sublist (limit : Option Nat) (rows : List α) :
    (limited limit rows).Sublist rows := by
  cases limit with
  | none => exact List.Sublist.refl rows
  | some n => exact List.take_sublist n rows

theorem length_limited_le {limit : Option Nat} {n : Nat} (h : limit = some n)
    (rows : List α) : (limited limit rows).length ≤ n := by
  rw [h]
  exact List.length_take_le n rows

/-- A row that is cut off: the result is as long as the limit, and every row in
it comes no later. -/
theorem cut_off_limited {limit : Option Nat} (hsorted : rows.Pairwise le)
    (hy : y ∈ rows) (hcut : y ∉ limited limit rows) :
    exists n, limit = some n ∧ (limited limit rows).length = n ∧
      forall x, x ∈ limited limit rows -> le x y := by
  cases limit with
  | none => exact absurd hy hcut
  | some n =>
      have hrest : y ∈ rows.drop n := by
        rw [← List.take_append_drop n rows] at hy
        exact (List.mem_append.mp hy).resolve_left hcut
      refine ⟨n, rfl, ?_, ?_⟩
      · have hlt : n < rows.length := by
          have hpos := List.length_pos_of_mem hrest
          rw [List.length_drop] at hpos
          exact Nat.lt_of_sub_pos hpos
        exact List.length_take_of_le (Nat.le_of_lt hlt)
      · intro x hx
        rw [← List.take_append_drop n rows, List.pairwise_append] at hsorted
        exact hsorted.right.right x hx y hrest

end Library
end OpenMk3
