import OpenMk3.Ui.Canvas

/-!
# Two ways to fill a rectangle

`Framebuffer::fill_rect` clips the rectangle and fills slices of the pixels; the
loop of `PixelSink::fill_rect` sets the points one by one.  Both set the screen
pixels of the rectangle and mark the tiles that hold one of them.
-/

namespace OpenMk3
namespace Ui

open Display Display.Framebuffer Library PixelSink Proto

namespace FbSink

variable {px py : Nat}

/-!
## Tiles marked point by point
-/

theorem marked_fillColumns (xs : List UInt16) (y : UInt16) (c : Rgb)
    (fb : Framebuffer) (hon : OnScreen px py) :
    (xs.foldl (fun sink xx => set sink xx y c) fb).Marked px py <->
      fb.Marked px py ∨ exists xx, xx ∈ xs ∧ OnScreen xx.toNat y.toNat ∧
        px / tile = xx.toNat / tile ∧ py / tile = y.toNat / tile := by
  induction xs generalizing fb with
  | nil =>
      simp
  | cons xx rest ih =>
      have hset := fb.marked_setPixel xx y c hon
      rw [List.foldl_cons, ih, List.exists_mem_cons_iff]
      exact (or_congr_left hset).trans or_assoc

theorem marked_fillLines (ys xs : List UInt16) (c : Rgb) (fb : Framebuffer)
    (hon : OnScreen px py) :
    (ys.foldl (fun sink yy => xs.foldl (fun sink xx => set sink xx yy c) sink)
        fb).Marked px py <->
      fb.Marked px py ∨ exists yy, yy ∈ ys ∧ exists xx, xx ∈ xs ∧
        OnScreen xx.toNat yy.toNat ∧
          px / tile = xx.toNat / tile ∧ py / tile = yy.toNat / tile := by
  induction ys generalizing fb with
  | nil =>
      simp
  | cons yy rest ih =>
      rw [List.foldl_cons, ih, marked_fillColumns xs yy c fb hon,
        List.exists_mem_cons_iff]
      exact or_assoc

/-- A screen coordinate is a word between the ends of the loop. -/
theorem exists_mem_range_iff {x w : UInt16} {n : Nat} (hn : n < 65535) :
    (exists xx, xx ∈ range x (saturatingAdd x w) ∧ xx.toNat = n) <->
      x.toNat ≤ n ∧ n < x.toNat + w.toNat := by
  rw [<- List.mem_map, mem_range_iff, saturatingAdd_toNat]
  omega

/-- The loop over single pixels marks what the framebuffer's own rectangle
marks. -/
theorem marked_fillRect (fb : Framebuffer) (x y w h : UInt16) (c : Rgb)
    (hon : OnScreen px py) :
    (PixelSink.fillRect fb x y w h c).Marked px py <->
      fb.Marked px py ∨ exists qx qy, OnScreen qx qy ∧
        Raster.InRect x.toNat y.toNat w.toNat h.toNat qx qy ∧
          qx / tile = px / tile ∧ qy / tile = py / tile := by
  rw [PixelSink.fillRect, marked_fillLines _ _ _ _ hon]
  refine or_congr_right ?_
  constructor
  · rintro ⟨yy, hyy, xx, hxx, hq, hx, hy⟩
    have hsmall : xx.toNat < 65535 ∧ yy.toNat < 65535 := by
      rw [onScreen_iff] at hq
      omega
    have hcol := (exists_mem_range_iff hsmall.left).mp ⟨xx, hxx, rfl⟩
    have hrow := (exists_mem_range_iff hsmall.right).mp ⟨yy, hyy, rfl⟩
    exact ⟨xx.toNat, yy.toNat, hq, ⟨hcol, hrow⟩, hx.symm, hy.symm⟩
  · rintro ⟨qx, qy, hq, ⟨hcol, hrow⟩, hx, hy⟩
    have hsmall : qx < 65535 ∧ qy < 65535 := by
      rw [onScreen_iff] at hq
      omega
    rcases (exists_mem_range_iff hsmall.left).mpr hcol with ⟨xx, hxx, rfl⟩
    rcases (exists_mem_range_iff hsmall.right).mpr hrow with ⟨yy, hyy, rfl⟩
    exact ⟨yy, hyy, xx, hxx, hq, hx.symm, hy.symm⟩

/-- Framebuffers with the same marked pixels have the same dirty tiles. -/
theorem isTileDirty_ext {fb fb' : Framebuffer}
    (h : forall px py, OnScreen px py -> (fb.Marked px py <-> fb'.Marked px py))
    (c r : Nat) : fb.dirty.isTileDirty c r = fb'.dirty.isTileDirty c r := by
  by_cases hout : c ≥ cols ∨ r ≥ rows
  · rw [DirtyTracker.isTileDirty_of_out hout, DirtyTracker.isTileDirty_of_out hout]
  · have hon : OnScreen (c * tile) (r * tile) := by
      rw [onScreen_iff_tile, Nat.mul_div_cancel c (by decide),
        Nat.mul_div_cancel r (by decide)]
      omega
    have hmarked := h _ _ hon
    unfold Marked at hmarked
    rw [Nat.mul_div_cancel c (by decide), Nat.mul_div_cancel r (by decide)] at hmarked
    exact Bool.eq_iff_iff.mpr hmarked

/-!
## Both fills agree
-/

/-- The fast fill leaves the pixels and the dirty tiles that setting every point
of the rectangle leaves, whatever the framebuffer held. -/
theorem fillRect_agrees (fb : Framebuffer) (x y w h : UInt16) (c : Rgb) :
    (fb.fillRect x y w h c).pixels = (PixelSink.fillRect fb x y w h c).pixels ∧
      forall col row, (fb.fillRect x y w h c).dirty.isTileDirty col row =
        (PixelSink.fillRect fb x y w h c).dirty.isTileDirty col row := by
  constructor
  · apply pixels_ext
    intro px py hon
    rw [Framebuffer.pixelAt_fillRect fb x y w h c hon,
      pixelAt_fillRect fb x y w h c hon]
  · apply isTileDirty_ext
    intro px py hon
    rw [Framebuffer.marked_fillRect fb x y w h c hon,
      marked_fillRect fb x y w h c hon]

end FbSink

end Ui
end OpenMk3
