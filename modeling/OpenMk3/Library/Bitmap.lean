import Mathlib.Data.BitVec

/-!
# Bitmaps in 64-bit words

A bit index is split into a word index `idx / 64` and a bit position
`idx % 64`.  The lemmas say what shifting, masking and OR-ing a word mean for
the bits so addressed.
-/

namespace OpenMk3
namespace Library
namespace Bitmap

variable {n : Nat}

/-- The bit of the bitmap at a flat index; bits past the end read as clear. -/
def bit (bits : Vector (BitVec 64) n) (idx : Nat) : Bool :=
  if h : idx / 64 < n then bits[idx / 64].getLsbD (idx % 64) else false

theorem bit_of_lt (bits : Vector (BitVec 64) n) {idx : Nat}
    (h : idx / 64 < n) :
    bit bits idx = bits[idx / 64].getLsbD (idx % 64) := by
  rw [bit, dif_pos h]

theorem shift_and_one_ne_zero (w : BitVec 64) (k : Nat) :
    (w >>> k &&& 1#64 ≠ 0#64) <-> w.getLsbD k = true := by
  constructor
  · intro h
    by_contra hk
    apply h
    ext i hi
    by_cases hi0 : i = 0
    · subst hi0
      simpa using hk
    · simp [hi0]
  · intro h hzero
    have h0 := congrArg (fun v => v.getLsbD 0) hzero
    simp [h] at h0

/-- OR-ing one bit into a word of the bitmap adds exactly that index. -/
theorem bit_set_or (bits : Vector (BitVec 64) n) {idx : Nat}
    (h : idx / 64 < n) (j : Nat) :
    bit (bits.set (idx / 64) (bits[idx / 64] ||| 1#64 <<< (idx % 64)) h) j =
      (decide (j = idx) || bit bits j) := by
  by_cases hj : j / 64 < n
  · rw [bit_of_lt _ hj, bit_of_lt _ hj, Vector.getElem_set]
    by_cases hword : idx / 64 = j / 64
    · have hbit : j % 64 < 64 := Nat.mod_lt _ (by decide)
      simp only [hword, if_true, BitVec.getLsbD_or, BitVec.getLsbD_shiftLeft,
        BitVec.getLsbD_one, hbit, decide_true, Bool.true_and]
      rw [Bool.or_comm]
      congr 1
      by_cases hjidx : j = idx
      · subst hjidx
        simp
      · simp [hjidx]
        omega
    · have hne : j ≠ idx := by
        intro heq
        exact hword (by rw [heq])
      simp [hword, hne]
  · have hne : j ≠ idx := by
      intro heq
      exact hj (by rw [heq]; exact h)
    simp [bit, hj, hne]

theorem all_eq_zero_iff (bits : Vector (BitVec 64) n) :
    (bits.all fun b => b == 0#64) = true <->
      forall idx, bit bits idx = false := by
  rw [Vector.all_eq_true]
  constructor
  · intro h idx
    by_cases hidx : idx / 64 < n
    · have hzero : bits[idx / 64] = 0#64 := by
        simpa using h (idx / 64) hidx
      rw [bit_of_lt _ hidx, hzero]
      simp
    · simp [bit, hidx]
  · intro h i hi
    have hzero : bits[i] = 0#64 := by
      ext k hk
      have hdiv : (64 * i + k) / 64 = i := by omega
      have hmod : (64 * i + k) % 64 = k := by omega
      have hbit := h (64 * i + k)
      rw [bit_of_lt _ (by rw [hdiv]; exact hi)] at hbit
      simp only [hdiv, hmod] at hbit
      simpa [BitVec.getLsbD_eq_getElem hk] using hbit
    simpa using hzero

end Bitmap
end Library
end OpenMk3
