import OpenMk3.Display.Encoder
import OpenMk3.Ui.View

/-!
# Drawing into a framebuffer

The framebuffer as the sink of the UI.  A sink-side rectangle sets exactly the
screen pixels inside it, so the background of a picture covers every pixel and
the pixels `render` leaves do not depend on the ones it found.
-/

namespace OpenMk3
namespace Ui

open Display Display.Framebuffer Library PixelSink Proto

/-- The daemon's adapter from the framebuffer to the drawing trait. -/
instance FbSink : PixelSink Framebuffer where
  width _ := screenW.toUInt16
  height _ := screenH.toUInt16
  set := Framebuffer.setPixel

namespace FbSink

variable {px py : Nat}

theorem mem_range_iff (lo hi : UInt16) (n : Nat) :
    n ∈ (range lo hi).map UInt16.toNat <-> lo.toNat ≤ n ∧ n < hi.toNat := by
  have hword : forall m : Nat, m ∈ List.range' lo.toNat (hi.toNat - lo.toNat) ->
      m.toUInt16.toNat = m := by
    intro m hm
    rw [List.mem_range'_1] at hm
    have := hi.toNat_lt
    exact toUInt16_toNat (by omega)
  rw [range, List.map_map, List.mem_map]
  constructor
  · intro h
    rcases h with ⟨m, hm, heq⟩
    rw [Function.comp_apply, hword m hm] at heq
    rw [← heq]
    rw [List.mem_range'_1] at hm
    omega
  · intro h
    have hm : n ∈ List.range' lo.toNat (hi.toNat - lo.toNat) := by
      rw [List.mem_range'_1]
      omega
    exact ⟨n, hm, hword n hm⟩

theorem pixelAt_fillColumns (xs : List UInt16) (y : UInt16) (c : Rgb)
    (fb : Framebuffer) (hon : OnScreen px py) :
    (xs.foldl (fun sink xx => set sink xx y c) fb).pixelAt px py =
      if px ∈ xs.map UInt16.toNat ∧ py = y.toNat then c.toRgb565
      else fb.pixelAt px py := by
  induction xs generalizing fb with
  | nil =>
      simp
  | cons xx rest ih =>
      have hmem := List.mem_cons (a := px) (b := xx.toNat)
        (l := rest.map UInt16.toNat)
      rw [List.foldl_cons, ih, List.map_cons]
      by_cases hrest : px ∈ rest.map UInt16.toNat ∧ py = y.toNat
      · rw [if_pos hrest, if_pos ⟨hmem.mpr (Or.inr hrest.left), hrest.right⟩]
      · rw [if_neg hrest]
        exact (fb.pixelAt_setPixel xx y c hon).trans (if_congr (by tauto) rfl rfl)

theorem pixelAt_fillLines (ys xs : List UInt16) (c : Rgb) (fb : Framebuffer)
    (hon : OnScreen px py) :
    (ys.foldl (fun sink yy => xs.foldl (fun sink xx => set sink xx yy c) sink)
        fb).pixelAt px py =
      if px ∈ xs.map UInt16.toNat ∧ py ∈ ys.map UInt16.toNat then c.toRgb565
      else fb.pixelAt px py := by
  induction ys generalizing fb with
  | nil =>
      simp
  | cons yy rest ih =>
      have hmem := List.mem_cons (a := py) (b := yy.toNat)
        (l := rest.map UInt16.toNat)
      rw [List.foldl_cons, ih, List.map_cons]
      by_cases hrest : px ∈ xs.map UInt16.toNat ∧ py ∈ rest.map UInt16.toNat
      · rw [if_pos hrest, if_pos ⟨hrest.left, hmem.mpr (Or.inr hrest.right)⟩]
      · rw [if_neg hrest, pixelAt_fillColumns xs yy c fb hon]
        exact if_congr (by tauto) rfl rfl

theorem saturatingAdd_toNat (a b : UInt16) :
    (saturatingAdd a b).toNat = min (a.toNat + b.toNat) 65535 := by
  rw [saturatingAdd]
  split
  · next h =>
      rw [UInt16.toNat_add, Nat.mod_eq_of_lt h, Nat.min_eq_left (by omega)]
  · next h =>
      rw [Nat.min_eq_right (by omega)]
      rfl

/-- On the screen the loop over single pixels fills what the framebuffer's own
rectangle fills. -/
theorem pixelAt_fillRect (fb : Framebuffer) (x y w h : UInt16) (c : Rgb)
    (hon : OnScreen px py) :
    (PixelSink.fillRect fb x y w h c).pixelAt px py =
      if Raster.InRect x.toNat y.toNat w.toNat h.toNat px py then c.toRgb565
      else fb.pixelAt px py := by
  rw [PixelSink.fillRect, pixelAt_fillLines _ _ _ _ hon]
  refine if_congr ?_ rfl rfl
  rw [mem_range_iff, mem_range_iff, saturatingAdd_toNat, saturatingAdd_toNat]
  rw [onScreen_iff] at hon
  unfold Raster.InRect
  omega

theorem pixelAt_erase (fb : Framebuffer) (hon : OnScreen px py) :
    (BrowseState.erase fb).pixelAt px py =
      BrowseState.background.toRgb565 := by
  rw [BrowseState.erase, pixelAt_fillRect fb _ _ _ _ _ hon, if_pos]
  exact ⟨⟨Nat.zero_le px, hon.left⟩,
    ⟨Nat.zero_le py, hon.right⟩⟩

/-- Pixel vectors are equal when they agree on every coordinate. -/
theorem pixels_ext {fb fb' : Framebuffer}
    (h : forall px py, OnScreen px py -> fb.pixelAt px py = fb'.pixelAt px py) :
    fb.pixels = fb'.pixels := by
  apply Vector.ext
  intro i hi
  have hon : OnScreen (i % screenW) (i / screenW) := by
    simp only [OnScreen, pixelCount, screenW, screenH, DisplayId.width,
      DisplayId.height] at hi ⊢
    omega
  have hat := h _ _ hon
  simpa only [pixelAt, Nat.div_add_mod', Vector.getElem?_eq_getElem hi,
    Option.getD_some] using hat

/-- Framebuffers showing the same pixels. -/
def SamePixels (fb fb' : Framebuffer) : Prop :=
  fb.pixels = fb'.pixels

theorem setPixel_pixels (fb : Framebuffer) (x y : UInt16) (c : Rgb) :
    (fb.setPixel x y c).pixels =
      if h : x.toNat ≥ screenW ∨ y.toNat ≥ screenH then fb.pixels
      else fb.pixels.set (y.toNat * screenW + x.toNat) c.toRgb565
        (pixel_index_lt h) := by
  rw [setPixel]
  split <;> rfl

theorem samePixels_lockstep : Lockstep SamePixels where
  width _ := rfl
  height _ := rfl
  set x y c h := by
    show (Framebuffer.setPixel _ x y c).pixels =
      (Framebuffer.setPixel _ x y c).pixels
    rw [setPixel_pixels, setPixel_pixels, h]

end FbSink

namespace BrowseState

/-- The pixels `render` leaves are the same whatever the framebuffer held. -/
theorem render_pixels (b : BrowseState) (which : DisplayId)
    (fb fb' : Framebuffer) :
    (b.render which fb).pixels = (b.render which fb').pixels := by
  have herase : FbSink.SamePixels (erase fb) (erase fb') := by
    apply FbSink.pixels_ext
    intro px py hon
    rw [FbSink.pixelAt_erase fb hon, FbSink.pixelAt_erase fb' hon]
  exact render_lockstep FbSink.samePixels_lockstep herase b which

end BrowseState

end Ui
end OpenMk3
