import Mathlib.Data.Nat.Find
import Mathlib.Tactic.ByContra

/-!
# Free-slot masks

A word whose set bits are the free slots.  Taking the lowest free slot clears
its bit and no other, and giving a slot back sets it again.
-/

namespace OpenMk3
namespace Library
namespace SlotMask

variable {w : Nat}

def lowestBit (mask : BitVec w) : BitVec w := mask &&& -mask

def lowestSlot (mask : BitVec w) : Nat := (lowestBit mask).ctz.toNat

theorem getLsbD_lowestBit (mask : BitVec w) (i : Nat) :
    (lowestBit mask).getLsbD i = true <->
      mask.getLsbD i = true ∧ forall j, j < i -> mask.getLsbD j = false := by
  rw [lowestBit, BitVec.getLsbD_and, BitVec.getLsbD_neg]
  cases hi : mask.getLsbD i with
  | false =>
      simp
  | true =>
      have hlt := BitVec.lt_of_getLsbD hi
      simp [hlt]

theorem exists_lowest {mask : BitVec w} (h : mask ≠ 0) :
    exists i, (lowestBit mask).getLsbD i = true := by
  have hset : exists i, mask.getLsbD i = true := by
    by_contra hnone
    apply h
    apply BitVec.eq_of_getLsbD_eq
    intro i _
    have hi : mask.getLsbD i = false :=
      Bool.eq_false_iff.mpr fun hi => hnone ⟨i, hi⟩
    rw [hi]
    exact BitVec.getLsbD_zero.symm
  refine ⟨Nat.find hset, ?_⟩
  rw [getLsbD_lowestBit]
  exact ⟨Nat.find_spec hset, fun j hj =>
    Bool.eq_false_iff.mpr (Nat.find_min hset hj)⟩

theorem getLsbD_lowestSlot {mask : BitVec w} (h : mask ≠ 0) :
    (lowestBit mask).getLsbD (lowestSlot mask) = true := by
  rcases exists_lowest h with ⟨i, hi⟩
  apply BitVec.getLsbD_true_ctz_of_ne_zero
  intro hzero
  rw [hzero] at hi
  rw [BitVec.getLsbD_zero] at hi
  cases hi

/-- The lowest slot is free. -/
theorem free_lowestSlot {mask : BitVec w} (h : mask ≠ 0) :
    mask.getLsbD (lowestSlot mask) = true :=
  ((getLsbD_lowestBit mask _).mp (getLsbD_lowestSlot h)).left

theorem getLsbD_lowestBit_iff {mask : BitVec w} (h : mask ≠ 0) (i : Nat) :
    (lowestBit mask).getLsbD i = true <-> i = lowestSlot mask := by
  constructor
  · intro hi
    have hlow := (getLsbD_lowestBit mask i).mp hi
    have hslot := (getLsbD_lowestBit mask _).mp (getLsbD_lowestSlot h)
    rcases Nat.lt_trichotomy i (lowestSlot mask) with hlt | heq | hgt
    · have hclear := hslot.right i hlt
      rw [hlow.left] at hclear
      cases hclear
    · exact heq
    · have hclear := hlow.right _ hgt
      rw [hslot.left] at hclear
      cases hclear
  · intro heq
    rw [heq]
    exact getLsbD_lowestSlot h

/-- Taking the lowest slot clears its bit and no other. -/
theorem getLsbD_take {mask : BitVec w} (h : mask ≠ 0) (i : Nat) :
    (mask &&& ~~~(lowestBit mask)).getLsbD i = true <->
      mask.getLsbD i = true ∧ i ≠ lowestSlot mask := by
  rw [BitVec.getLsbD_and, BitVec.getLsbD_not]
  have hbit := getLsbD_lowestBit_iff h i
  cases hi : mask.getLsbD i with
  | false =>
      simp
  | true =>
      have hlt := BitVec.lt_of_getLsbD hi
      rw [Ne, ← hbit]
      simp [hlt]

/-- Giving a slot back sets its bit and no other. -/
theorem getLsbD_give (mask : BitVec w) {slot : Nat} (hslot : slot < w)
    (i : Nat) :
    (mask ||| ((1 : BitVec w) <<< slot)).getLsbD i = true <->
      mask.getLsbD i = true ∨ i = slot := by
  show (mask ||| BitVec.twoPow w slot).getLsbD i = true <-> _
  rw [BitVec.getLsbD_or, BitVec.getLsbD_twoPow]
  rw [Bool.or_eq_true, decide_eq_true hslot, Bool.true_and, decide_eq_true_iff,
    eq_comm (a := slot)]

end SlotMask
end Library
end OpenMk3
