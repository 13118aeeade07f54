import OpenMk3.Library.Fallible
import OpenMk3.Library.Words
import OpenMk3.Ui.Canvas

/-!
# Plotted pixels

What rectangles and text write on a sink of fixed size, as a list of pixels, and
the lines that these can be on.  The text loop is also given with arithmetic that
has no result where it would wrap.
-/

namespace OpenMk3
namespace Ui

open Library Proto

/-- A sink whose size drawing does not change. -/
class FixedSize (σ : Type) [PixelSink σ] : Prop where
  width_set (sink : σ) (x y : UInt16) (c : Rgb) :
    PixelSink.width (PixelSink.set sink x y c) = PixelSink.width sink
  height_set (sink : σ) (x y : UInt16) (c : Rgb) :
    PixelSink.height (PixelSink.set sink x y c) = PixelSink.height sink

instance : FixedSize Display.Framebuffer where
  width_set _ _ _ _ := rfl
  height_set _ _ _ _ := rfl

structure Pixel where
  x : UInt16
  y : UInt16
  color : Rgb
deriving DecidableEq

namespace PixelSink

variable {σ : Type} [PixelSink σ]

def plot (sink : σ) (ps : List Pixel) : σ :=
  ps.foldl (fun sink p => set sink p.x p.y p.color) sink

def fillPixels (x y w h : UInt16) (c : Rgb) : List Pixel :=
  (range y (saturatingAdd y h)).flatMap fun yy =>
    (range x (saturatingAdd x w)).map fun xx => { x := xx, y := yy, color := c }

def columnPixels (x y : UInt16) (bits : UInt8) (color : Rgb) : List Pixel :=
  ((List.range Font.charH.toNat).filter fun row =>
      (bits >>> row.toUInt8) &&& 1 ≠ 0).map fun row =>
    { x := x, y := y + row.toUInt16, color := color }

def glyphPixels (x y : UInt16) (g : List UInt8) (color : Rgb) : List Pixel :=
  g.zipIdx.flatMap fun p => columnPixels (x + p.2.toUInt16) y p.1 color

def textPixels (width x y : UInt16) (text : List Char) (color : Rgb) : List Pixel :=
  match text with
  | [] => []
  | ch :: rest =>
      if x + Font.charW > width then []
      else
        glyphPixels x y (Font.glyph ch) color ++
          textPixels width (x + Font.charW) y rest color

/-!
## Drawing is plotting
-/

theorem plot_append (sink : σ) (ps qs : List Pixel) :
    plot sink (ps ++ qs) = plot (plot sink ps) qs :=
  List.foldl_append

theorem plot_flatMap {α : Type} (sink : σ) (xs : List α) (f : α -> List Pixel) :
    plot sink (xs.flatMap f) = xs.foldl (fun sink a => plot sink (f a)) sink := by
  induction xs generalizing sink with
  | nil =>
      rfl
  | cons a xs ih =>
      rw [List.flatMap_cons, plot_append, List.foldl_cons, ih]

theorem fillRect_eq_plot (sink : σ) (x y w h : UInt16) (c : Rgb) :
    fillRect sink x y w h c = plot sink (fillPixels x y w h c) := by
  rw [fillPixels, plot_flatMap, fillRect]
  congr 1
  funext sink yy
  rw [plot, List.foldl_map]

theorem drawColumn_eq_plot (sink : σ) (x y : UInt16) (bits : UInt8) (color : Rgb) :
    drawColumn sink x y bits color = plot sink (columnPixels x y bits color) := by
  rw [columnPixels, plot, List.foldl_map, List.foldl_filter, drawColumn]
  simp only [decide_eq_true_eq]

theorem drawGlyph_eq_plot (sink : σ) (x y : UInt16) (g : List UInt8) (color : Rgb) :
    drawGlyph sink x y g color = plot sink (glyphPixels x y g color) := by
  rw [glyphPixels, plot_flatMap, drawGlyph]
  congr 1
  funext sink p
  exact drawColumn_eq_plot sink _ y p.1 color

section FixedSize

variable [FixedSize σ]

@[simp] theorem width_plot (sink : σ) (ps : List Pixel) :
    width (plot sink ps) = width sink := by
  induction ps generalizing sink with
  | nil =>
      rfl
  | cons p ps ih =>
      exact (ih (set sink p.x p.y p.color)).trans (FixedSize.width_set _ _ _ _)

@[simp] theorem height_plot (sink : σ) (ps : List Pixel) :
    height (plot sink ps) = height sink := by
  induction ps generalizing sink with
  | nil =>
      rfl
  | cons p ps ih =>
      exact (ih (set sink p.x p.y p.color)).trans (FixedSize.height_set _ _ _ _)

theorem drawText_eq_plot (sink : σ) (x y : UInt16) (text : List Char) (color : Rgb) :
    (drawText sink x y text color).1 =
      plot sink (textPixels (width sink) x y text color) := by
  induction text generalizing sink x with
  | nil =>
      rfl
  | cons ch rest ih =>
      rw [drawText, textPixels]
      split_ifs with hfull
      · rfl
      · rw [ih, drawGlyph_eq_plot, width_plot, plot_append]

end FixedSize

/-!
## Lines of the screen
-/

/-- The lines of a rectangle. -/
theorem y_of_mem_fillPixels {x y w h : UInt16} {c : Rgb} {p : Pixel}
    (hp : p ∈ fillPixels x y w h c) :
    y.toNat ≤ p.y.toNat ∧ p.y.toNat < y.toNat + h.toNat := by
  rcases List.mem_flatMap.mp hp with ⟨yy, hyy, hmem⟩
  rcases List.mem_map.mp hmem with ⟨xx, -, rfl⟩
  have hrange := (FbSink.mem_range_iff y _ yy.toNat).mp (List.mem_map_of_mem hyy)
  rw [FbSink.saturatingAdd_toNat] at hrange
  show y.toNat ≤ yy.toNat ∧ yy.toNat < y.toNat + h.toNat
  omega

theorem row_lt {row : Nat} (h : row ∈ List.range Font.charH.toNat) : row < 8 :=
  List.mem_range.mp h

/-- A text is eight lines high. -/
theorem y_of_mem_textPixels {width x y : UInt16} {text : List Char} {color : Rgb}
    {p : Pixel} (hy : y.toNat + 8 ≤ 2 ^ 16)
    (hp : p ∈ textPixels width x y text color) :
    y.toNat ≤ p.y.toNat ∧ p.y.toNat < y.toNat + 8 := by
  induction text generalizing x with
  | nil =>
      cases hp
  | cons ch rest ih =>
      rw [textPixels] at hp
      split_ifs at hp with hfull
      · cases hp
      · rcases List.mem_append.mp hp with hglyph | hrest
        · rcases List.mem_flatMap.mp hglyph with ⟨col, -, hcol⟩
          rcases List.mem_map.mp hcol with ⟨row, hrow, rfl⟩
          have hlt := row_lt (List.mem_filter.mp hrow).left
          have hsum : (y + row.toUInt16).toNat = y.toNat + row := by
            rw [UInt16.toNat_add, toUInt16_toNat (by omega), Nat.mod_eq_of_lt (by omega)]
          show y.toNat ≤ (y + row.toUInt16).toNat ∧
            (y + row.toUInt16).toNat < y.toNat + 8
          omega
        · exact ih hrest

/-!
## Checked arithmetic
-/

def drawColumn? (sink : σ) (x y : UInt16) (bits : UInt8) (color : Rgb) : Option σ :=
  (List.range Font.charH.toNat).foldlM
    (fun sink row =>
      if (bits >>> row.toUInt8) &&& 1 ≠ 0 then do
        let row <- Checked.cast row
        let yy <- Checked.add y row
        some (set sink x yy color)
      else some sink)
    sink

def drawGlyph? (sink : σ) (x y : UInt16) (g : List UInt8) (color : Rgb) : Option σ :=
  g.zipIdx.foldlM
    (fun sink p => do
      let col <- Checked.cast p.2
      let xx <- Checked.add x col
      drawColumn? sink xx y p.1 color)
    sink

def drawText? (sink : σ) (x y : UInt16) (text : List Char) (color : Rgb) :
    Option (σ × UInt16) :=
  match text with
  | [] => some (sink, x)
  | ch :: rest => do
      let next <- Checked.add x Font.charW
      if next > width sink then some (sink, x)
      else do
        let sink <- drawGlyph? sink x y (Font.glyph ch) color
        drawText? sink next y rest color

theorem drawColumn?_eq (sink : σ) (x : UInt16) {y : UInt16} (bits : UInt8)
    (color : Rgb) (hy : y.toNat + 8 ≤ 2 ^ 16) :
    drawColumn? sink x y bits color = some (drawColumn sink x y bits color) := by
  refine Fallible.foldlM_eq_foldl ?_ sink
  intro sink row hrow
  have hlt := row_lt hrow
  split_ifs with hbit
  · have hcast : Checked.cast row = some row.toUInt16 := if_pos (by omega)
    have hadd : Checked.add y row.toUInt16 = some (y + row.toUInt16) := by
      refine if_pos ?_
      rw [toUInt16_toNat (by omega)]
      omega
    rw [hcast, Option.bind_eq_bind, Option.bind_some, hadd]
    rfl
  · rfl

theorem drawGlyph?_eq (sink : σ) {x y : UInt16} {g : List UInt8} (color : Rgb)
    (hg : g.length = 6) (hx : x.toNat + 6 ≤ 2 ^ 16) (hy : y.toNat + 8 ≤ 2 ^ 16) :
    drawGlyph? sink x y g color = some (drawGlyph sink x y g color) := by
  refine Fallible.foldlM_eq_foldl ?_ sink
  intro sink p hp
  have hlt : p.2 < 6 := by
    have := List.snd_lt_of_mem_zipIdx hp
    omega
  have hcast : Checked.cast p.2 = some p.2.toUInt16 := if_pos (by omega)
  have hadd : Checked.add x p.2.toUInt16 = some (x + p.2.toUInt16) := by
    refine if_pos ?_
    rw [toUInt16_toNat (by omega)]
    omega
  rw [hcast, Option.bind_eq_bind, Option.bind_some, hadd]
  exact drawColumn?_eq sink _ p.1 color hy

/-- On a sink of moderate width, no operation of the text loop wraps. -/
theorem drawText?_eq [FixedSize σ] {sink : σ} {x y : UInt16} (text : List Char)
    (color : Rgb) (hwidth : (width sink).toNat + 12 ≤ 2 ^ 16)
    (hx : x.toNat ≤ (width sink).toNat) (hy : y.toNat + 8 ≤ 2 ^ 16) :
    drawText? sink x y text color = some (drawText sink x y text color) := by
  induction text generalizing sink x with
  | nil =>
      rfl
  | cons ch rest ih =>
      have hcharW : Font.charW.toNat = 6 := rfl
      have hadd : Checked.add x Font.charW = some (x + Font.charW) :=
        if_pos (by omega)
      rw [drawText?, drawText, hadd, Option.bind_eq_bind, Option.bind_some]
      split_ifs with hfull
      · rfl
      · have hnext : (x + Font.charW).toNat ≤ (width sink).toNat := by
          rw [gt_iff_lt, UInt16.lt_iff_toNat_lt] at hfull
          omega
        have hsize : width (drawGlyph sink x y (Font.glyph ch) color) = width sink := by
          rw [drawGlyph_eq_plot, width_plot]
        rw [drawGlyph?_eq sink color (Font.glyph_length ch) (by omega) hy,
          Option.bind_eq_bind, Option.bind_some]
        exact ih (by rw [hsize]; exact hwidth) (by rw [hsize]; exact hnext)

end PixelSink

end Ui
end OpenMk3
