import OpenMk3.Display.Dirty
import OpenMk3.Library.Words

/-!
# Framebuffer

The CPU-side framebuffer backing one display: a pixel vector in row-major order
and the dirty-tile tracker.  Every mutator is described by the pixels it leaves
and by the tiles it marks.
-/

namespace OpenMk3
namespace Display

open Library Proto

@[simp] abbrev screenW : Nat := DisplayId.width

@[simp] abbrev screenH : Nat := DisplayId.height

def pixelCount : Nat := screenW * screenH

/-- RGB565 pixels in native endian, row-major. -/
abbrev Pixels : Type := Vector UInt16 pixelCount

structure Framebuffer where
  pixels : Pixels
  dirty : DirtyTracker

namespace Framebuffer

def new : Framebuffer :=
  { pixels := Vector.replicate pixelCount 0
    dirty := DirtyTracker.new }

def isDirty (fb : Framebuffer) : Bool := !fb.dirty.isEmpty

def clear (fb : Framebuffer) (color : Rgb) : Framebuffer :=
  let v := color.toRgb565
  { pixels := fb.pixels.map fun _ => v
    dirty := fb.dirty.markFull }

theorem pixel_index_lt {x y : Nat} (h : ¬ (x ≥ screenW ∨ y ≥ screenH)) :
    y * screenW + x < pixelCount := by
  simp only [pixelCount, screenW, screenH, DisplayId.width,
    DisplayId.height] at h ⊢
  omega

def setPixel (fb : Framebuffer) (x y : UInt16) (c : Rgb) : Framebuffer :=
  if h : x.toNat ≥ screenW ∨ y.toNat ≥ screenH then fb
  else
    { pixels := fb.pixels.set (y.toNat * screenW + x.toNat) c.toRgb565
        (pixel_index_lt h)
      dirty := fb.dirty.markPixel x y }

def touch (fb : Framebuffer) (x y w h : UInt16) : Framebuffer :=
  { fb with dirty := fb.dirty.markRect x y w h }

/-- Assign one value to the slice `lo..hi` of the pixels. -/
def fillSlice (pixels : Pixels) (lo hi : Nat) (v : UInt16) : Pixels :=
  pixels.mapIdx fun i p => if lo ≤ i ∧ i < hi then v else p

/-- Fill a rectangle with a solid color, clipped to the framebuffer bounds. -/
def fillRect (fb : Framebuffer) (x y w h : UInt16) (c : Rgb) : Framebuffer :=
  let x0 := min x.toNat screenW
  let y0 := min y.toNat screenH
  let x1 := min (x0 + w.toNat) screenW
  let y1 := min (y0 + h.toNat) screenH
  if x0 = x1 ∨ y0 = y1 then fb
  else
    let v := c.toRgb565
    { pixels := (List.range' y0 (y1 - y0)).foldl
        (fun pixels yy =>
          fillSlice pixels (yy * screenW + x0) (yy * screenW + x1) v)
        fb.pixels
      dirty := fb.dirty.markRect x0.toUInt16 y0.toUInt16
        (x1 - x0).toUInt16 (y1 - y0).toUInt16 }

/-!
## Pixels by coordinate
-/

def pixelAt (fb : Framebuffer) (x y : Nat) : UInt16 :=
  (fb.pixels[y * screenW + x]?).getD 0

def OnScreen (x y : Nat) : Prop := x < screenW ∧ y < screenH

instance (x y : Nat) : Decidable (OnScreen x y) :=
  inferInstanceAs (Decidable (_ ∧ _))

theorem onScreen_iff {x y : Nat} : OnScreen x y <-> x < 480 ∧ y < 272 := Iff.rfl

/-- The screen is the pixels of its tiles. -/
theorem onScreen_iff_tile {x y : Nat} :
    OnScreen x y <-> x / tile < cols ∧ y / tile < rows := by
  rw [onScreen_iff]
  simp only [tile, cols, rows]
  omega

theorem index_lt_of_onScreen {x y : Nat} (h : OnScreen x y) :
    y * screenW + x < pixelCount :=
  pixel_index_lt (by unfold OnScreen at h; omega)

private theorem index_inj {x y x' y' : Nat} (h : OnScreen x y)
    (h' : OnScreen x' y') :
    y * screenW + x = y' * screenW + x' <-> x = x' ∧ y = y' := by
  rw [onScreen_iff] at h h'
  simp only [screenW, DisplayId.width]
  omega

/-- The tile holding a coordinate is marked. -/
def Marked (fb : Framebuffer) (x y : Nat) : Prop :=
  fb.dirty.isTileDirty (x / tile) (y / tile) = true

instance (fb : Framebuffer) (x y : Nat) : Decidable (fb.Marked x y) :=
  inferInstanceAs (Decidable (_ = true))

theorem isDirty_of_marked {fb : Framebuffer} {x y : Nat} (h : fb.Marked x y) :
    fb.isDirty = true := by
  cases hempty : fb.dirty.isEmpty with
  | false => rw [isDirty, hempty, Bool.not_false]
  | true =>
      rw [Marked, DirtyTracker.isTileDirty_of_isEmpty hempty] at h
      cases h

/-!
## New and cleared framebuffers
-/

theorem pixelAt_new (x y : Nat) : new.pixelAt x y = 0 := by
  simp only [pixelAt, new, Vector.getElem?_replicate]
  split <;> rfl

theorem pixelAt_clear (fb : Framebuffer) (color : Rgb) {x y : Nat}
    (h : OnScreen x y) : (fb.clear color).pixelAt x y = color.toRgb565 := by
  simp only [pixelAt, clear, Vector.getElem_map, Option.getD_some,
    Vector.getElem?_eq_getElem (index_lt_of_onScreen h)]

theorem marked_clear (fb : Framebuffer) (color : Rgb) {x y : Nat}
    (h : OnScreen x y) : (fb.clear color).Marked x y :=
  (DirtyTracker.isTileDirty_markFull fb.dirty _ _).mpr (onScreen_iff_tile.mp h)

/-!
## Single pixels
-/

theorem pixelAt_setPixel (fb : Framebuffer) (x y : UInt16) (c : Rgb)
    {px py : Nat} (h : OnScreen px py) :
    (fb.setPixel x y c).pixelAt px py =
      if px = x.toNat ∧ py = y.toNat then c.toRgb565 else fb.pixelAt px py := by
  by_cases hout : x.toNat ≥ screenW ∨ y.toNat ≥ screenH
  · have hne : ¬ (px = x.toNat ∧ py = y.toNat) := by
      unfold OnScreen at h
      omega
    rw [setPixel, dif_pos hout, if_neg hne]
  · have hon : OnScreen x.toNat y.toNat := by
      unfold OnScreen
      omega
    rw [setPixel, dif_neg hout]
    simp only [pixelAt, Vector.getElem?_set]
    by_cases heq : px = x.toNat ∧ py = y.toNat
    · rw [if_pos heq, if_pos ((index_inj hon h).mpr ⟨heq.left.symm,
        heq.right.symm⟩)]
      rfl
    · rw [if_neg heq, if_neg (fun hidx => heq ?_)]
      have hinj := (index_inj hon h).mp hidx
      exact ⟨hinj.left.symm, hinj.right.symm⟩

theorem marked_setPixel (fb : Framebuffer) (x y : UInt16) (c : Rgb)
    {px py : Nat} (h : OnScreen px py) :
    (fb.setPixel x y c).Marked px py <->
      fb.Marked px py ∨ (OnScreen x.toNat y.toNat ∧
        px / tile = x.toNat / tile ∧ py / tile = y.toNat / tile) := by
  by_cases hout : x.toNat ≥ screenW ∨ y.toNat ≥ screenH
  · rw [setPixel, dif_pos hout]
    unfold OnScreen
    constructor
    · exact Or.inl
    · intro hm
      rcases hm with hm | hm
      · exact hm
      · omega
  · have hon : OnScreen x.toNat y.toNat := by
      unfold OnScreen
      omega
    rw [setPixel, dif_neg hout]
    unfold Marked
    rw [DirtyTracker.isTileDirty_markPixel]
    have hin := onScreen_iff_tile.mp h
    tauto

/-!
## Filled rectangles
-/

theorem getElem?_fillSlice (pixels : Pixels) (lo hi : Nat) (v : UInt16)
    {i : Nat} (hi' : i < pixelCount) :
    (fillSlice pixels lo hi v)[i]? =
      if lo ≤ i ∧ i < hi then some v else pixels[i]? := by
  simp only [fillSlice, Vector.getElem_mapIdx, Vector.getElem?_eq_getElem hi']
  split <;> rfl

private theorem getElem?_fillRows (pixels : Pixels) {x0 x1 : Nat}
    (hx1 : x1 ≤ screenW) (v : UInt16) (ys : List Nat) {px py : Nat}
    (h : OnScreen px py) :
    (ys.foldl (fun pixels yy => fillSlice pixels (yy * screenW + x0)
        (yy * screenW + x1) v) pixels)[py * screenW + px]? =
      if py ∈ ys ∧ x0 ≤ px ∧ px < x1 then some v
      else pixels[py * screenW + px]? := by
  induction ys generalizing pixels with
  | nil => simp
  | cons yy rest ih =>
      have hrow : (yy * screenW + x0 ≤ py * screenW + px ∧
          py * screenW + px < yy * screenW + x1) <->
            py = yy ∧ x0 ≤ px ∧ px < x1 := by
        rw [onScreen_iff] at h
        simp only [screenW, DisplayId.width] at hx1 ⊢
        omega
      rw [List.foldl_cons, ih, getElem?_fillSlice _ _ _ _
        (index_lt_of_onScreen h), if_congr hrow rfl rfl]
      by_cases hcols : x0 ≤ px ∧ px < x1
      · by_cases hrest : py ∈ rest
        · simp [hcols, hrest]
        · simp [hcols, hrest]
      · simp [hcols]

/-- The clipped rectangle holds the screen pixels of the rectangle. -/
private theorem clip_iff {x y w h : UInt16} {px py : Nat}
    (hon : OnScreen px py) :
    Raster.InRect x.toNat y.toNat w.toNat h.toNat px py <->
      (min x.toNat screenW ≤ px ∧
        px < min (min x.toNat screenW + w.toNat) screenW) ∧
      (min y.toNat screenH ≤ py ∧
        py < min (min y.toNat screenH + h.toNat) screenH) := by
  simp only [OnScreen, Raster.InRect] at hon ⊢
  omega

theorem pixelAt_fillRect (fb : Framebuffer) (x y w h : UInt16) (c : Rgb)
    {px py : Nat} (hon : OnScreen px py) :
    (fb.fillRect x y w h c).pixelAt px py =
      if Raster.InRect x.toNat y.toNat w.toNat h.toNat px py then c.toRgb565
      else fb.pixelAt px py := by
  have hclip := clip_iff (x := x) (y := y) (w := w) (h := h) hon
  unfold fillRect
  extract_lets x0 y0 x1 y1 v
  by_cases hempty : x0 = x1 ∨ y0 = y1
  · have hnot : ¬ Raster.InRect x.toNat y.toNat w.toNat h.toNat px py := by
      rw [hclip]
      omega
    rw [if_pos hempty, if_neg hnot]
  · have hrows : py ∈ List.range' y0 (y1 - y0) ∧ x0 ≤ px ∧ px < x1 <->
        Raster.InRect x.toNat y.toNat w.toNat h.toNat px py := by
      rw [hclip, List.mem_range'_1]
      omega
    rw [if_neg hempty]
    simp only [pixelAt]
    rw [getElem?_fillRows fb.pixels (Nat.min_le_right _ _) v _ hon,
      if_congr hrows rfl rfl]
    split <;> rfl

theorem marked_fillRect (fb : Framebuffer) (x y w h : UInt16) (c : Rgb)
    {px py : Nat} (hon : OnScreen px py) :
    (fb.fillRect x y w h c).Marked px py <->
      fb.Marked px py ∨ exists qx qy, OnScreen qx qy ∧
        Raster.InRect x.toNat y.toNat w.toNat h.toNat qx qy ∧
          qx / tile = px / tile ∧ qy / tile = py / tile := by
  unfold fillRect
  extract_lets x0 y0 x1 y1 v
  by_cases hempty : x0 = x1 ∨ y0 = y1
  · rw [if_pos hempty]
    constructor
    · exact Or.inl
    · intro hm
      rcases hm with hm | ⟨qx, qy, hq, hin, _⟩
      · exact hm
      · have hclip := (clip_iff hq).mp hin
        omega
  · rw [if_neg hempty]
    unfold Marked
    rw [DirtyTracker.isTileDirty_markRect]
    have hx1 : x1 ≤ screenW := Nat.min_le_right _ _
    have hy1 : y1 ≤ screenH := Nat.min_le_right _ _
    have hx0 : x0 ≤ x1 := by omega
    have hy0 : y0 ≤ y1 := by omega
    have hword : forall n : Nat, n ≤ screenW -> n.toUInt16.toNat = n := by
      intro n hn
      simp only [screenW, DisplayId.width] at hn
      exact toUInt16_toNat (by omega)
    have hle : screenH ≤ screenW := by decide
    rw [hword x0 (by omega), hword y0 (by omega), hword (x1 - x0) (by omega),
      hword (y1 - y0) (by omega)]
    have hin := onScreen_iff_tile.mp hon
    constructor
    · intro hm
      rcases hm with hm | ⟨_, qx, qy, hrect, htile⟩
      · exact Or.inl hm
      · unfold Raster.InRect at hrect
        have hq : OnScreen qx qy := ⟨by omega, by omega⟩
        exact Or.inr ⟨qx, qy, hq, (clip_iff hq).mpr (by omega), htile⟩
    · intro hm
      rcases hm with hm | ⟨qx, qy, hq, hrect, htile⟩
      · exact Or.inl hm
      · have hclip := (clip_iff hq).mp hrect
        refine Or.inr ⟨hin, qx, qy, ?_, htile⟩
        unfold Raster.InRect
        omega

/-!
## Touched rectangles
-/

theorem marked_touch (fb : Framebuffer) (x y w h : UInt16) {px py : Nat}
    (hon : OnScreen px py) :
    (fb.touch x y w h).Marked px py <->
      fb.Marked px py ∨ exists qx qy,
        Raster.InRect x.toNat y.toNat w.toNat h.toNat qx qy ∧
          qx / tile = px / tile ∧ qy / tile = py / tile := by
  unfold Marked touch
  rw [DirtyTracker.isTileDirty_markRect]
  have hin := onScreen_iff_tile.mp hon
  tauto

end Framebuffer

end Display
end OpenMk3
