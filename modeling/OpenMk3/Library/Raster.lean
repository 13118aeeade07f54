import Mathlib.Data.List.Basic

/-!
# Rasters and row-major rectangles

A raster assigns a value to every coordinate.  Reading a rectangle lists its
values row by row, and painting writes a list of values row by row from the
corner of a rectangle.  Painting what was read from another raster copies the
rectangle and leaves every other coordinate alone.
-/

namespace OpenMk3
namespace Library

universe u v

variable {value : Type u}

/-- A value at every coordinate, column first. -/
abbrev Raster (value : Type u) : Type u := Nat -> Nat -> value

namespace Raster

def set (s : Raster value) (x y : Nat) (v : value) : Raster value :=
  fun px py => if px = x ∧ py = y then v else s px py

/-- Coordinates inside the rectangle with the given corner and size. -/
def InRect (x y w h px py : Nat) : Prop :=
  (x ≤ px ∧ px < x + w) ∧ (y ≤ py ∧ py < y + h)

instance (x y w h px py : Nat) : Decidable (InRect x y w h px py) :=
  inferInstanceAs (Decidable (_ ∧ _))

/-- The values of a rectangle, row by row. -/
def readRect (s : Raster value) (x y w h : Nat) : List value :=
  (List.range' y h).flatMap fun py => (List.range' x w).map fun px => s px py

/-- Write values row by row, the next one at position `k` of the rectangle. -/
def paintFrom (s : Raster value) (x y w : Nat) : Nat -> List value -> Raster value
  | _, [] => s
  | k, v :: rest => paintFrom (s.set (x + k % w) (y + k / w) v) x y w (k + 1) rest

/-- Write values row by row from the corner of a rectangle of width `w`. -/
def paint (s : Raster value) (x y w : Nat) (values : List value) : Raster value :=
  paintFrom s x y w 0 values

/-!
## Reading
-/

@[simp] theorem length_readRect (s : Raster value) (x y w h : Nat) :
    (readRect s x y w h).length = w * h := by
  simp [readRect, List.length_flatMap, List.map_const', Nat.mul_comm]

/-- Reading a rectangle of one value repeats it. -/
theorem readRect_const (v : value) (x y w h : Nat) :
    readRect (fun _ _ => v) x y w h = List.replicate (w * h) v := by
  rw [List.eq_replicate_iff]
  refine ⟨length_readRect _ x y w h, ?_⟩
  intro v' hv'
  rcases List.mem_flatMap.mp hv' with ⟨_, _, hrow⟩
  rcases List.mem_map.mp hrow with ⟨_, _, hv⟩
  exact hv.symm

/-- Position `j * w + i` of a list of rows of width `w` is entry `i` of row `j`. -/
theorem getElem?_flatMap_of_uniform {row : Type v} {w i : Nat} (hi : i < w)
    (f : row -> List value) (rows : List row)
    (hlen : forall r, r ∈ rows -> (f r).length = w) (j : Nat) :
    (rows.flatMap f)[j * w + i]? = rows[j]?.bind fun r => (f r)[i]? := by
  induction rows generalizing j with
  | nil => simp
  | cons r rest ih =>
      have hr : (f r).length = w := hlen r List.mem_cons_self
      cases j with
      | zero =>
          have hlt : 0 * w + i < (f r).length := by omega
          rw [List.flatMap_cons, List.getElem?_append_left hlt]
          simp
      | succ j =>
          have hsub : (j + 1) * w + i - w = j * w + i := by
            rw [Nat.succ_mul]
            omega
          have hge : (f r).length ≤ (j + 1) * w + i := by
            rw [hr, Nat.succ_mul]
            omega
          rw [List.flatMap_cons, List.getElem?_append_right hge, hr, hsub,
            ih (fun r' hr' => hlen r' (List.mem_cons_of_mem r hr'))]
          simp

theorem getElem?_readRect (s : Raster value) (x y : Nat) {w h i j : Nat}
    (hi : i < w) (hj : j < h) :
    (readRect s x y w h)[j * w + i]? = some (s (x + i) (y + j)) := by
  rw [readRect, getElem?_flatMap_of_uniform hi _ _ (by simp)]
  simp [hi, hj]

/-!
## Painting
-/

/-- Position `k` of a rectangle of width `w` is the coordinate it wraps to. -/
private theorem position_eq_iff {x y w px py k : Nat} (hw : 0 < w) :
    (px = x + k % w ∧ py = y + k / w) <->
      (x ≤ px ∧ px < x + w) ∧ y ≤ py ∧ (py - y) * w + (px - x) = k := by
  have huniq : k / w = py - y ∧ k % w = px - x <->
      px - x + w * (py - y) = k ∧ px - x < w := Nat.div_mod_unique hw
  have hmod : k % w < w := Nat.mod_lt k hw
  rw [Nat.mul_comm (py - y) w]
  generalize k / w = q at huniq ⊢
  generalize k % w = r at huniq hmod ⊢
  constructor
  · intro h
    have hiff := huniq.mp ⟨by omega, by omega⟩
    omega
  · intro h
    have hiff := huniq.mpr ⟨by omega, by omega⟩
    omega

theorem paintFrom_apply (s : Raster value) (x y : Nat) {w : Nat} (hw : 0 < w)
    (k : Nat) (values : List value) (px py : Nat) :
    paintFrom s x y w k values px py =
      if (x ≤ px ∧ px < x + w) ∧ y ≤ py ∧ k ≤ (py - y) * w + (px - x) then
        (values[(py - y) * w + (px - x) - k]?).getD (s px py)
      else
        s px py := by
  induction values generalizing s k with
  | nil => simp [paintFrom]
  | cons v rest ih =>
      rw [paintFrom, ih]
      have hpos := @position_eq_iff x y w px py k hw
      by_cases hat : px = x + k % w ∧ py = y + k / w
      · have hk := hpos.mp hat
        have hnot : ¬ k + 1 ≤ (py - y) * w + (px - x) := by omega
        have hle : k ≤ (py - y) * w + (px - x) := by omega
        have hzero : (py - y) * w + (px - x) - k = 0 := by omega
        simp only [hnot, and_false, if_false, set, if_pos hat]
        rw [if_pos ⟨hk.left, hk.right.left, hle⟩, hzero]
        rfl
      · have hset : s.set (x + k % w) (y + k / w) v px py = s px py := by
          simp only [set, if_neg hat]
        rw [hset]
        by_cases hin : (x ≤ px ∧ px < x + w) ∧ y ≤ py
        · by_cases hle : k + 1 ≤ (py - y) * w + (px - x)
          · have hsub : (py - y) * w + (px - x) - k =
                (py - y) * w + (px - x) - (k + 1) + 1 := by omega
            rw [if_pos ⟨hin.left, hin.right, hle⟩,
              if_pos ⟨hin.left, hin.right, by omega⟩, hsub,
              List.getElem?_cons_succ]
          · have hne : (py - y) * w + (px - x) ≠ k := fun heq =>
              hat (hpos.mpr ⟨hin.left, hin.right, heq⟩)
            have hnot : ¬ k ≤ (py - y) * w + (px - x) := by omega
            simp only [hle, hnot, and_false, if_false]
        · rw [if_neg (fun h => hin ⟨h.left, h.right.left⟩),
            if_neg (fun h => hin ⟨h.left, h.right.left⟩)]

/-- Painting the values read from a raster copies the rectangle. -/
theorem paint_readRect (s source : Raster value) (x y w h px py : Nat) :
    paint s x y w (readRect source x y w h) px py =
      if InRect x y w h px py then source px py else s px py := by
  rcases Nat.eq_zero_or_pos w with hzero | hw
  · subst hzero
    have hnil : readRect source x y 0 h = [] := by
      apply List.length_eq_zero_iff.mp
      simp
    rw [hnil, if_neg (by unfold InRect; omega)]
    rfl
  · rw [paint, paintFrom_apply s x y hw]
    by_cases hcol : x ≤ px ∧ px < x + w
    · by_cases hrow : y ≤ py ∧ py < y + h
      · have hget := getElem?_readRect source x y (w := w) (h := h)
          (i := px - x) (j := py - y) (by omega) (by omega)
        rw [if_pos ⟨hcol, hrow.left, Nat.zero_le _⟩, if_pos ⟨hcol, hrow⟩,
          Nat.sub_zero, hget, Nat.add_sub_cancel' hcol.left,
          Nat.add_sub_cancel' hrow.left]
        rfl
      · rw [if_neg (c := InRect x y w h px py) (fun hin => hrow hin.right)]
        by_cases hy : y ≤ py
        · have hge : w * h ≤ (py - y) * w + (px - x) := by
            have hmul : h * w ≤ (py - y) * w :=
              Nat.mul_le_mul_right w (by omega)
            rw [Nat.mul_comm w h]
            omega
          rw [if_pos ⟨hcol, hy, Nat.zero_le _⟩, Nat.sub_zero,
            List.getElem?_eq_none (by simpa using hge)]
          rfl
        · rw [if_neg (fun hin => hy hin.right.left)]
    · rw [if_neg (fun hin => hcol hin.left),
        if_neg (fun hin => hcol hin.left)]

end Raster
end Library
end OpenMk3
