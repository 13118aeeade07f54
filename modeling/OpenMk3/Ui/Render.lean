import OpenMk3.Ui.Font

/-!
# Rendering helpers

Drawing through the pixel-writing interface that the UI sees of a framebuffer:
filled rectangles and text, as loops over single pixels.
-/

namespace OpenMk3
namespace Ui

open Proto

/-- The trait through which the UI draws. -/
class PixelSink (σ : Type) where
  width : σ -> UInt16
  height : σ -> UInt16
  set : σ -> UInt16 -> UInt16 -> Rgb -> σ

namespace PixelSink

variable {σ : Type} [PixelSink σ]

/-- The half-open range `lo..hi` of coordinates. -/
def range (lo hi : UInt16) : List UInt16 :=
  (List.range' lo.toNat (hi.toNat - lo.toNat)).map Nat.toUInt16

def saturatingAdd (a b : UInt16) : UInt16 :=
  if a.toNat + b.toNat < 65536 then a + b else 65535

def fillRect (sink : σ) (x y w h : UInt16) (c : Rgb) : σ :=
  (range y (saturatingAdd y h)).foldl
    (fun sink yy => (range x (saturatingAdd x w)).foldl
      (fun sink xx => set sink xx yy c) sink)
    sink

/-- One column of a glyph, bit 0 on top. -/
def drawColumn (sink : σ) (x y : UInt16) (bits : UInt8) (color : Rgb) : σ :=
  (List.range Font.charH.toNat).foldl
    (fun sink row =>
      if (bits >>> row.toUInt8) &&& 1 ≠ 0 then
        set sink x (y + row.toUInt16) color
      else sink)
    sink

def drawGlyph (sink : σ) (x y : UInt16) (g : List UInt8) (color : Rgb) : σ :=
  g.zipIdx.foldl
    (fun sink p => drawColumn sink (x + p.2.toUInt16) y p.1 color) sink

/-- Draw characters until the line is full; the column after the last one is
returned too. -/
def drawText (sink : σ) (x y : UInt16) (text : List Char) (color : Rgb) :
    σ × UInt16 :=
  match text with
  | [] => (sink, x)
  | ch :: rest =>
      if x + Font.charW > width sink then (sink, x)
      else
        drawText (drawGlyph sink x y (Font.glyph ch) color) (x + Font.charW) y
          rest color

/-!
## Drawing on two sinks at once
-/

/-- A relation of sinks of one size that drawing the same pixel on both keeps. -/
structure Lockstep (R : σ -> σ -> Prop) : Prop where
  width : forall {s s' : σ}, R s s' -> width s = width s'
  height : forall {s s' : σ}, R s s' -> height s = height s'
  set : forall {s s' : σ} (x y : UInt16) (c : Rgb), R s s' ->
    R (set s x y c) (set s' x y c)

section Lockstep

variable {R : σ -> σ -> Prop} {s s' : σ}

theorem Lockstep.fillRect (hR : Lockstep R) (h : R s s') (x y w h' : UInt16)
    (c : Rgb) :
    R (PixelSink.fillRect s x y w h' c) (PixelSink.fillRect s' x y w h' c) := by
  refine List.foldl_rel h ?_
  intro yy _ t t' ht
  exact List.foldl_rel ht fun xx _ _ _ ht' => hR.set xx yy c ht'

theorem Lockstep.drawGlyph (hR : Lockstep R) (h : R s s') (x y : UInt16)
    (g : List UInt8) (color : Rgb) :
    R (PixelSink.drawGlyph s x y g color)
      (PixelSink.drawGlyph s' x y g color) := by
  refine List.foldl_rel h ?_
  intro p _ t t' ht
  refine List.foldl_rel ht ?_
  intro row _ u u' hu
  split
  · exact hR.set _ _ color hu
  · exact hu

theorem Lockstep.drawText (hR : Lockstep R) (h : R s s') (x y : UInt16)
    (text : List Char) (color : Rgb) :
    R (PixelSink.drawText s x y text color).1
      (PixelSink.drawText s' x y text color).1 := by
  induction text generalizing s s' x with
  | nil =>
      exact h
  | cons ch rest ih =>
      rw [PixelSink.drawText, PixelSink.drawText, hR.width h]
      split
      · exact h
      · exact ih (hR.drawGlyph h x y (Font.glyph ch) color) _

end Lockstep

end PixelSink

end Ui
end OpenMk3
