import OpenMk3.Library.Bitmap
import OpenMk3.Library.Raster
import OpenMk3.Library.Runs
import OpenMk3.Proto.Types

/-!
# Dirty-tile tracker

The 480×272 screen is divided into 30×17 tiles of 16×16 pixels, one bit each,
packed into eight 64-bit words.  The lemmas describe every mutator by the set of
tiles it leaves dirty, so that later modules never look at the bits.
-/

namespace OpenMk3
namespace Display

open Library

@[simp] abbrev tile : Nat := 16

@[simp] abbrev cols : Nat := 30

@[simp] abbrev rows : Nat := 17

@[simp] abbrev tileBits : Nat := cols * rows

/-- The indices of the inclusive range `lo..=hi`. -/
def inclusive (lo hi : Nat) : List Nat := List.range' lo (hi + 1 - lo)

theorem mem_inclusive {lo hi k : Nat} :
    k ∈ inclusive lo hi <-> lo ≤ k ∧ k ≤ hi := by
  rw [inclusive, List.mem_range'_1]
  omega

structure DirtyTracker where
  bits : Vector (BitVec 64) 8

namespace DirtyTracker

def new : DirtyTracker := { bits := Vector.replicate 8 0#64 }

def clear (_ : DirtyTracker) : DirtyTracker :=
  { bits := Vector.replicate 8 0#64 }

/-- The word with index `i` of a bitmap with every tile marked. -/
def fullWord (i : Nat) : BitVec 64 :=
  let base := i * 64
  if base ≥ tileBits then 0#64
  else
    let last := min (base + 64) tileBits
    let n := last - base
    if n = 64 then ~~~0#64 else 1#64 <<< n - 1#64

def markFull (_ : DirtyTracker) : DirtyTracker :=
  { bits := Vector.ofFn fun i : Fin 8 => fullWord i.val }

def isEmpty (d : DirtyTracker) : Bool := d.bits.all fun b => b == 0#64

def tileIndex (col row : Nat) : Nat := row * cols + col

theorem tileIndex_lt {col row : Nat} (h : ¬ (col ≥ cols ∨ row ≥ rows)) :
    tileIndex col row / 64 < 8 := by
  simp only [cols, rows, tileIndex] at h ⊢
  omega

def markTile (d : DirtyTracker) (col row : Nat) : DirtyTracker :=
  if h : col ≥ cols ∨ row ≥ rows then d
  else
    let idx := tileIndex col row
    have hidx : idx / 64 < 8 := tileIndex_lt h
    { bits := d.bits.set (idx / 64)
        (d.bits[idx / 64] ||| 1#64 <<< (idx % 64)) hidx }

def isTileDirty (d : DirtyTracker) (col row : Nat) : Bool :=
  if h : col ≥ cols ∨ row ≥ rows then false
  else
    let idx := tileIndex col row
    have hidx : idx / 64 < 8 := tileIndex_lt h
    decide (d.bits[idx / 64] >>> (idx % 64) &&& 1#64 ≠ 0#64)

def markPixel (d : DirtyTracker) (x y : UInt16) : DirtyTracker :=
  d.markTile (x.toNat / tile) (y.toNat / tile)

def markRect (d : DirtyTracker) (x y w h : UInt16) : DirtyTracker :=
  if w = 0 ∨ h = 0 then d
  else
    let c0 := x.toNat / tile
    let r0 := y.toNat / tile
    let c1 := (x.toNat + w.toNat - 1) / tile
    let r1 := (y.toNat + h.toNat - 1) / tile
    (inclusive r0 (min r1 (rows - 1))).foldl
      (fun d r =>
        (inclusive c0 (min c1 (cols - 1))).foldl (fun d c => d.markTile c r) d)
      d

/-- Horizontal runs of dirty tiles for each row, as (row, first, last). -/
def runs (d : DirtyTracker) : List (Nat × Nat × Nat) :=
  (List.range rows).flatMap fun r =>
    (Runs.runsFrom (fun c => d.isTileDirty c r) cols 0).map fun run =>
      (r, run.1, run.2)

/-!
## Tiles and bits
-/

theorem isTileDirty_of_out {d : DirtyTracker} {c r : Nat}
    (h : c ≥ cols ∨ r ≥ rows) : d.isTileDirty c r = false := by
  rw [isTileDirty, dif_pos h]

theorem isTileDirty_of_in {d : DirtyTracker} {c r : Nat}
    (h : ¬ (c ≥ cols ∨ r ≥ rows)) :
    d.isTileDirty c r = Bitmap.bit d.bits (tileIndex c r) := by
  rw [isTileDirty, dif_neg h, Bitmap.bit_of_lt _ (tileIndex_lt h)]
  apply Bool.eq_iff_iff.mpr
  rw [decide_eq_true_iff]
  exact Bitmap.shift_and_one_ne_zero _ _

theorem in_range_of_isTileDirty {d : DirtyTracker} {c r : Nat}
    (h : d.isTileDirty c r = true) : c < cols ∧ r < rows := by
  by_contra hout
  rw [isTileDirty_of_out (by simp only [cols, rows] at hout ⊢; omega)] at h
  cases h

private theorem tileIndex_inj {c r c' r' : Nat} (hc : c < cols)
    (hc' : c' < cols) (h : tileIndex c r = tileIndex c' r') :
    c = c' ∧ r = r' := by
  simp only [cols, tileIndex] at hc hc' h
  omega

/-!
## Dirty tiles after each mutator
-/

@[simp] theorem isTileDirty_new (c r : Nat) :
    new.isTileDirty c r = false := by
  by_cases h : c ≥ cols ∨ r ≥ rows
  · exact isTileDirty_of_out h
  · rw [isTileDirty_of_in h, Bitmap.bit_of_lt _ (tileIndex_lt h)]
    simp [new]

@[simp] theorem isTileDirty_clear (d : DirtyTracker) (c r : Nat) :
    d.clear.isTileDirty c r = false :=
  isTileDirty_new c r

theorem isTileDirty_markTile (d : DirtyTracker) (col row c r : Nat) :
    (d.markTile col row).isTileDirty c r = true <->
      d.isTileDirty c r = true ∨
        ((c < cols ∧ r < rows) ∧ c = col ∧ r = row) := by
  by_cases hout : c ≥ cols ∨ r ≥ rows
  · rw [isTileDirty_of_out hout, isTileDirty_of_out hout]
    constructor
    · intro h
      cases h
    · intro h
      rcases h with h | h
      · cases h
      · omega
  · rw [isTileDirty_of_in hout, isTileDirty_of_in hout]
    by_cases hskip : col ≥ cols ∨ row ≥ rows
    · rw [markTile, dif_pos hskip]
      constructor
      · exact Or.inl
      · intro h
        rcases h with h | h
        · exact h
        · omega
    · rw [markTile, dif_neg hskip]
      simp only [Bitmap.bit_set_or, Bool.or_eq_true, decide_eq_true_eq]
      constructor
      · intro h
        rcases h with h | h
        · have hinj := tileIndex_inj (by omega) (by omega) h
          exact Or.inr ⟨by omega, hinj⟩
        · exact Or.inl h
      · intro h
        rcases h with h | h
        · exact Or.inr h
        · rw [h.right.left, h.right.right]
          exact Or.inl rfl

private theorem fullWord_bit (idx : Nat) (h : idx < tileBits) :
    (fullWord (idx / 64)).getLsbD (idx % 64) = true := by
  have hword : forall i : Fin 8, forall k : Fin 64,
      64 * i.val + k.val < 510 -> (fullWord i.val).getLsbD k.val = true := by
    decide
  simp only [tileBits, cols, rows] at h
  exact hword ⟨idx / 64, by omega⟩ ⟨idx % 64, by omega⟩ (by simp only; omega)

theorem isTileDirty_markFull (d : DirtyTracker) (c r : Nat) :
    d.markFull.isTileDirty c r = true <-> c < cols ∧ r < rows := by
  constructor
  · exact in_range_of_isTileDirty
  · intro h
    have hin : ¬ (c ≥ cols ∨ r ≥ rows) := by omega
    rw [isTileDirty_of_in hin, Bitmap.bit_of_lt _ (tileIndex_lt hin)]
    simp only [markFull, Vector.getElem_ofFn]
    apply fullWord_bit
    simp only [tileIndex, tileBits, cols, rows] at h ⊢
    omega

private theorem isTileDirty_foldl_markTile (d : DirtyTracker) (row : Nat)
    (cs : List Nat) (c r : Nat) :
    (cs.foldl (fun d c => d.markTile c row) d).isTileDirty c r = true <->
      d.isTileDirty c r = true ∨
        ((c < cols ∧ r < rows) ∧ c ∈ cs ∧ r = row) := by
  induction cs generalizing d with
  | nil => simp
  | cons col rest ih =>
      rw [List.foldl_cons, ih, isTileDirty_markTile, List.mem_cons]
      tauto

private theorem isTileDirty_foldl_rows (d : DirtyTracker) (cs rs : List Nat)
    (c r : Nat) :
    (rs.foldl (fun d row => cs.foldl (fun d c => d.markTile c row) d)
        d).isTileDirty c r = true <->
      d.isTileDirty c r = true ∨
        ((c < cols ∧ r < rows) ∧ c ∈ cs ∧ r ∈ rs) := by
  induction rs generalizing d with
  | nil => simp
  | cons row rest ih =>
      rw [List.foldl_cons, ih, isTileDirty_foldl_markTile, List.mem_cons]
      tauto

/-- Marking a rectangle marks the screen tiles holding one of its pixels. -/
theorem isTileDirty_markRect (d : DirtyTracker) (x y w h : UInt16)
    (c r : Nat) :
    (d.markRect x y w h).isTileDirty c r = true <->
      d.isTileDirty c r = true ∨
        ((c < cols ∧ r < rows) ∧
          exists px py, Raster.InRect x.toNat y.toNat w.toNat h.toNat px py ∧
            px / tile = c ∧ py / tile = r) := by
  have hzero : forall v : UInt16, v = 0 <-> v.toNat = 0 := fun v => by
    rw [← UInt16.toNat_inj]
    rfl
  by_cases hempty : w = 0 ∨ h = 0
  · rw [markRect, if_pos hempty]
    rw [hzero, hzero] at hempty
    constructor
    · exact Or.inl
    · intro hd
      rcases hd with hd | ⟨_, px, py, hin, _⟩
      · exact hd
      · unfold Raster.InRect at hin
        omega
  · rw [markRect, if_neg hempty, isTileDirty_foldl_rows, mem_inclusive,
      mem_inclusive]
    rw [hzero, hzero] at hempty
    simp only [tile, cols, rows]
    constructor
    · intro hd
      rcases hd with hd | hd
      · exact Or.inl hd
      · refine Or.inr ⟨hd.left, max x.toNat (16 * c), max y.toNat (16 * r),
          ?_, by omega, by omega⟩
        unfold Raster.InRect
        omega
    · intro hd
      rcases hd with hd | ⟨hlt, px, py, hin, hc, hr⟩
      · exact Or.inl hd
      · unfold Raster.InRect at hin
        exact Or.inr ⟨hlt, by omega, by omega⟩

theorem isTileDirty_markPixel (d : DirtyTracker) (x y : UInt16) (c r : Nat) :
    (d.markPixel x y).isTileDirty c r = true <->
      d.isTileDirty c r = true ∨
        ((c < cols ∧ r < rows) ∧ c = x.toNat / tile ∧ r = y.toNat / tile) :=
  isTileDirty_markTile d _ _ c r

theorem isTileDirty_of_isEmpty {d : DirtyTracker} (h : d.isEmpty = true)
    (c r : Nat) : d.isTileDirty c r = false := by
  by_cases hout : c ≥ cols ∨ r ≥ rows
  · exact isTileDirty_of_out hout
  · rw [isTileDirty_of_in hout]
    exact (Bitmap.all_eq_zero_iff d.bits).mp h _

/-!
## Runs
-/

theorem mem_runs_iff {d : DirtyTracker} {r a b : Nat} :
    (r, a, b) ∈ d.runs <->
      r < rows ∧
        Runs.IsMaximalRun (fun c => d.isTileDirty c r) cols a b := by
  simp only [runs, List.mem_flatMap, List.mem_range, List.mem_map,
    Prod.mk.injEq]
  constructor
  · intro h
    rcases h with ⟨row, hrow, run, hrun, hrr, ha, hb⟩
    subst hrr
    subst ha
    subst hb
    exact ⟨hrow, Runs.mem_runsFrom_iff.mp hrun⟩
  · intro h
    exact ⟨r, h.left, (a, b), Runs.mem_runsFrom_iff.mpr h.right, rfl, rfl, rfl⟩

/-- A tile is dirty exactly when some run of its row covers it. -/
theorem isTileDirty_iff_exists_run {d : DirtyTracker} {c r : Nat} :
    d.isTileDirty c r = true <->
      exists a b, (r, a, b) ∈ d.runs ∧ a ≤ c ∧ c ≤ b := by
  constructor
  · intro h
    have hin := in_range_of_isTileDirty h
    rcases Runs.exists_run_of_holds (p := fun c => d.isTileDirty c r)
        (Nat.zero_le c) hin.left h with ⟨run, hmem, hrun⟩
    exact ⟨run.1, run.2,
      mem_runs_iff.mpr ⟨hin.right, Runs.mem_runsFrom_iff.mp hmem⟩, hrun⟩
  · intro h
    rcases h with ⟨a, b, hmem, hac, hcb⟩
    exact (mem_runs_iff.mp hmem).right.holds c hac hcb

theorem pairwise_runs (d : DirtyTracker) :
    d.runs.Pairwise fun u v =>
      u.1 < v.1 ∨ (u.1 = v.1 ∧ u.2.2 + 1 < v.2.1) := by
  rw [runs, List.pairwise_flatMap]
  constructor
  · intro r _
    rw [List.pairwise_map]
    exact (Runs.pairwise_runsFrom _ _ _).imp fun h => Or.inr ⟨rfl, h⟩
  · refine List.pairwise_lt_range.imp ?_
    intro r r' hlt u hu v hv
    rcases List.mem_map.mp hu with ⟨_, _, hueq⟩
    rcases List.mem_map.mp hv with ⟨_, _, hveq⟩
    rw [← hueq, ← hveq]
    exact Or.inl hlt

end DirtyTracker

end Display
end OpenMk3
