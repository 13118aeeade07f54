import OpenMk3.Display.Dirty
import OpenMk3.Library.Coverage

/-!
# The tracker as a set of tiles

After any sequence of its operations the tracker holds the tiles covered since
it was last cleared, and no bit besides, so that it is empty exactly when no
tile is dirty.  The runs it returns partition the dirty tiles.
-/

namespace OpenMk3
namespace Display

open Library

/-- A tile by its column and row. -/
abbrev Tile : Type := Nat × Nat

inductive TileOp where
  | markTile (col row : Nat)
  | markPixel (x y : UInt16)
  | markRect (x y w h : UInt16)
  | markFull
  | clear
deriving DecidableEq, Repr

namespace TileOp

def apply (d : DirtyTracker) : TileOp -> DirtyTracker
  | markTile col row => d.markTile col row
  | markPixel x y => d.markPixel x y
  | markRect x y w h => d.markRect x y w h
  | markFull => d.markFull
  | clear => d.clear

/-- The pixel lies in the 16×16 square of the tile. -/
def InSquare (t : Tile) (px py : Nat) : Prop :=
  Raster.InRect (t.1 * tile) (t.2 * tile) tile tile px py

/-- What an operation covers of the plane of tiles. -/
def Covers : TileOp -> Tile -> Prop
  | markTile col row, t => t = (col, row)
  | markPixel x y, t => InSquare t x.toNat y.toNat
  | markRect x y w h, t =>
      exists px py, Raster.InRect x.toNat y.toNat w.toNat h.toNat px py ∧
        InSquare t px py
  | markFull, _ => True
  | clear, _ => False

def Clears (o : TileOp) : Prop := o = clear

theorem inSquare_iff {t : Tile} {px py : Nat} :
    InSquare t px py <-> px / tile = t.1 ∧ py / tile = t.2 := by
  unfold InSquare Raster.InRect tile
  omega

end TileOp

/-- The tiles of the screen. -/
def OnGrid (t : Tile) : Prop := t.1 < cols ∧ t.2 < rows

namespace DirtyTracker

/-!
## The tracker refines a set
-/

/-- The set that a tracker stands for. -/
def tiles (d : DirtyTracker) : Set Tile := {t | d.isTileDirty t.1 t.2 = true}

/-- What an operation covers of the screen. -/
def CoversOnGrid (o : TileOp) (t : Tile) : Prop := OnGrid t ∧ o.Covers t

theorem mem_tiles_iff {d : DirtyTracker} {c r : Nat} :
    (c, r) ∈ d.tiles <-> d.isTileDirty c r = true := Iff.rfl

theorem tiles_new : new.tiles = ∅ := by
  apply Set.eq_empty_of_forall_notMem
  rintro ⟨c, r⟩ ht
  rw [mem_tiles_iff, isTileDirty_new] at ht
  cases ht

/-- Each operation does to the tracker what it does to the set of tiles. -/
theorem tiles_apply (d : DirtyTracker) (o : TileOp) :
    (o.apply d).tiles = Coverage.cover TileOp.Clears CoversOnGrid d.tiles o := by
  apply Set.ext
  rintro ⟨c, r⟩
  rw [mem_tiles_iff, Coverage.mem_cover_iff, mem_tiles_iff]
  cases o with
  | markTile col row =>
      have hmark := isTileDirty_markTile d col row c r
      simp only [TileOp.apply, hmark, CoversOnGrid, OnGrid, TileOp.Covers,
        TileOp.Clears, Prod.mk.injEq, reduceCtorEq, not_false_eq_true, true_and]
      exact or_comm
  | markPixel x y =>
      have hmark := isTileDirty_markPixel d x y c r
      simp only [TileOp.apply, hmark, CoversOnGrid, OnGrid, TileOp.Covers,
        TileOp.inSquare_iff, TileOp.Clears, reduceCtorEq, not_false_eq_true,
        true_and, eq_comm]
      exact or_comm
  | markRect x y w h =>
      have hmark := isTileDirty_markRect d x y w h c r
      simp only [TileOp.apply, hmark, CoversOnGrid, OnGrid, TileOp.Covers,
        TileOp.inSquare_iff, TileOp.Clears, reduceCtorEq, not_false_eq_true,
        true_and]
      exact or_comm
  | markFull =>
      have hmark := isTileDirty_markFull d c r
      have hin : d.isTileDirty c r = true -> c < cols ∧ r < rows :=
        in_range_of_isTileDirty
      simp only [TileOp.apply, hmark, CoversOnGrid, OnGrid, TileOp.Covers,
        TileOp.Clears, reduceCtorEq, not_false_eq_true, true_and, and_true]
      exact (or_iff_left_of_imp hin).symm
  | clear =>
      simp [TileOp.apply, CoversOnGrid, TileOp.Covers, TileOp.Clears]

theorem tiles_foldl (ops : List TileOp) (d : DirtyTracker) :
    (ops.foldl TileOp.apply d).tiles =
      ops.foldl (Coverage.cover TileOp.Clears CoversOnGrid) d.tiles :=
  (List.foldl_hom tiles fun d o => (tiles_apply d o).symm).symm

/-!
## No bit besides the tiles
-/

/-- The bits past the last tile are clear. -/
def NoStray (d : DirtyTracker) : Prop :=
  forall idx, tileBits ≤ idx -> Bitmap.bit d.bits idx = false

theorem noStray_new : new.NoStray := by
  intro idx _
  have hzero : (new.bits.all fun b => b == 0#64) = true := by
    simp [new]
  exact (Bitmap.all_eq_zero_iff new.bits).mp hzero idx

theorem noStray_markFull (d : DirtyTracker) : d.markFull.NoStray := by
  have hword : forall i : Fin 8, forall k : Fin 64,
      510 ≤ 64 * i.val + k.val -> (fullWord i.val).getLsbD k.val = false := by
    decide
  intro idx hidx
  simp only [tileBits, cols, rows] at hidx
  unfold Bitmap.bit
  split
  · next hlt =>
      simp only [markFull, Vector.getElem_ofFn]
      exact hword ⟨idx / 64, hlt⟩ ⟨idx % 64, by omega⟩ (by simp only; omega)
  · rfl

theorem NoStray.markTile {d : DirtyTracker} (h : d.NoStray) (col row : Nat) :
    (d.markTile col row).NoStray := by
  intro idx hidx
  by_cases hout : col ≥ cols ∨ row ≥ rows
  · rw [DirtyTracker.markTile, dif_pos hout]
    exact h idx hidx
  · have hne : idx ≠ tileIndex col row := by
      simp only [tileIndex, tileBits, cols, rows] at hidx hout ⊢
      omega
    rw [DirtyTracker.markTile, dif_neg hout, Bitmap.bit_set_or, h idx hidx]
    simp [hne]

theorem NoStray.apply {d : DirtyTracker} (h : d.NoStray) (o : TileOp) :
    (o.apply d).NoStray := by
  cases o with
  | markTile col row => exact h.markTile col row
  | markPixel x y => exact h.markTile _ _
  | markRect x y w h' =>
      show (d.markRect x y w h').NoStray
      unfold markRect
      split
      · exact h
      · refine List.foldlRecOn _ _ h ?_
        intro d' hd' r _
        refine List.foldlRecOn _ _ hd' ?_
        intro d'' hd'' c _
        exact hd''.markTile c r
  | markFull => exact noStray_markFull d
  | clear => exact noStray_new

theorem noStray_foldl (ops : List TileOp) :
    (ops.foldl TileOp.apply new).NoStray :=
  List.foldlRecOn ops TileOp.apply noStray_new fun _ h o _ => h.apply o

/-- Without stray bits the bitmap is empty when no tile is dirty. -/
theorem NoStray.isEmpty_iff {d : DirtyTracker} (h : d.NoStray) :
    d.isEmpty = true <-> forall c r, d.isTileDirty c r = false := by
  constructor
  · exact isTileDirty_of_isEmpty
  · intro hclean
    apply (Bitmap.all_eq_zero_iff d.bits).mpr
    intro idx
    by_cases hidx : idx < tileBits
    · have hin : ¬ (idx % cols ≥ cols ∨ idx / cols ≥ rows) := by
        simp only [tileBits, cols, rows] at hidx ⊢
        omega
      have hindex : tileIndex (idx % cols) (idx / cols) = idx := by
        rw [tileIndex, Nat.div_add_mod']
      have hbit := hclean (idx % cols) (idx / cols)
      rw [isTileDirty_of_in hin, hindex] at hbit
      exact hbit
    · exact h idx (Nat.le_of_not_lt hidx)

theorem runs_eq_nil_iff (d : DirtyTracker) :
    d.runs = [] <-> forall c r, d.isTileDirty c r = false := by
  constructor
  · intro h c r
    rw [Bool.eq_false_iff]
    intro hdirty
    rcases isTileDirty_iff_exists_run.mp hdirty with ⟨a, b, hmem, _⟩
    rw [h] at hmem
    cases hmem
  · intro h
    apply List.eq_nil_iff_forall_not_mem.mpr
    rintro ⟨r, a, b⟩ hmem
    have hrun := (mem_runs_iff.mp hmem).right
    have hdirty := hrun.holds a (Nat.le_refl a) hrun.le
    rw [h a r] at hdirty
    cases hdirty

/-- After every sequence of operations the tracker holds the screen tiles that
were covered since it was last cleared; no other bit is set, and it is empty, no
tile is dirty and there is no run at the same time. -/
theorem tracker_is_tile_set (ops : List TileOp) :
    let d := ops.foldl TileOp.apply new
    (forall c r, d.isTileDirty c r = true <->
      c < cols ∧ r < rows ∧
        Coverage.CoveredSince TileOp.Clears TileOp.Covers ops (c, r)) ∧
    (Bitmap.bit d.bits 510 = false ∧ Bitmap.bit d.bits 511 = false) ∧
    (d.isEmpty = true <-> forall c r, d.isTileDirty c r = false) ∧
    ((forall c r, d.isTileDirty c r = false) <-> d.runs = []) := by
  intro d
  have hstray : d.NoStray := noStray_foldl ops
  refine ⟨?_, ⟨hstray 510 (by decide), hstray 511 (by decide)⟩, hstray.isEmpty_iff,
    (runs_eq_nil_iff d).symm⟩
  intro c r
  rw [<- mem_tiles_iff, tiles_foldl, tiles_new, Coverage.mem_foldl_cover_iff]
  exact (Coverage.coveredSince_and_iff _ _ OnGrid ops (c, r)).trans and_assoc

/-!
## Runs
-/

/-- The runs are the maximal horizontal runs of dirty tiles, one for each dirty
tile, from the top left on. -/
theorem runs_partition (d : DirtyTracker) :
    (forall r c0 c1, (r, c0, c1) ∈ d.runs ->
      (r < rows ∧ c0 ≤ c1 ∧ c1 < cols) ∧
      (forall c, c0 ≤ c -> c ≤ c1 -> d.isTileDirty c r = true) ∧
      (0 < c0 -> d.isTileDirty (c0 - 1) r = false) ∧
      (c1 + 1 < cols -> d.isTileDirty (c1 + 1) r = false)) ∧
    (forall c r, d.isTileDirty c r = true ->
      ∃! run, run ∈ d.runs ∧ run.1 = r ∧ run.2.1 ≤ c ∧ c ≤ run.2.2) ∧
    d.runs.Pairwise (fun u v => u.1 < v.1 ∨ (u.1 = v.1 ∧ u.2.1 < v.2.1)) := by
  refine ⟨?_, ?_, ?_⟩
  · intro r c0 c1 hmem
    rcases mem_runs_iff.mp hmem with ⟨hrow, hrun⟩
    refine ⟨⟨hrow, hrun.le, hrun.lt⟩, hrun.holds, ?_, hrun.right⟩
    intro hpos
    exact hrun.left.resolve_left (Nat.ne_of_gt hpos)
  · intro c r hdirty
    rcases isTileDirty_iff_exists_run.mp hdirty with ⟨a, b, hmem, hrange⟩
    refine ⟨(r, a, b), ⟨hmem, rfl, hrange⟩, ?_⟩
    rintro ⟨r', a', b'⟩ ⟨hmem', rfl, hrange'⟩
    have hrun := (mem_runs_iff.mp hmem).right
    have hrun' := (mem_runs_iff.mp hmem').right
    rcases hrun'.eq_of_mem hrun hrange' hrange with ⟨rfl, rfl⟩
    rfl
  · refine (pairwise_runs d).imp_of_mem ?_
    rintro ⟨r, a, b⟩ ⟨r', a', b'⟩ hmem _ hbefore
    have hle := (mem_runs_iff.mp hmem).right.le
    simp only at hbefore hle ⊢
    omega

end DirtyTracker

end Display
end OpenMk3
