import OpenMk3.Display.Reader

/-!
# Two ways to clear a screen

`encode_solid_frame` repeats one pixel pair over the whole screen; a cleared
framebuffer is encoded as one block for each row of tiles.  Both transfers leave
the same screens.
-/

namespace OpenMk3
namespace Display

open Library Proto

/-- The screens with one display all of one color. -/
def fillScreen (screens : Screens) (id : DisplayId) (word : UInt16) : Screens :=
  fun other px py =>
    if other = id ∧ Framebuffer.OnScreen px py then word else screens other px py

/-!
## The cleared framebuffer
-/

theorem marked_clear_iff (fb : Framebuffer) (color : Rgb) {px py : Nat} :
    (fb.clear color).Marked px py <-> Framebuffer.OnScreen px py := by
  constructor
  · intro h
    have hin := DirtyTracker.in_range_of_isTileDirty h
    exact Framebuffer.onScreen_iff_tile.mpr hin
  · exact fun h => fb.marked_clear color h

theorem showTransfer_clear (id : DisplayId) (color : Rgb) (fb : Framebuffer)
    (screens : Screens) :
    showTransfer screens (frameBytes id (fb.clear color)) =
      some (fillScreen screens id color.toRgb565) := by
  rcases showTransfer_frameBytes id (fb.clear color) screens with
    ⟨screens', hshow, hpixels⟩
  rw [hshow]
  congr 1
  funext other px py
  rw [hpixels, fillScreen, if_congr (and_congr_right fun _ => marked_clear_iff fb color)
    rfl rfl]
  split
  · next h => exact fb.pixelAt_clear color h.right
  · rfl

/-!
## The solid frame
-/

/-- The block that the reader makes of a solid frame. -/
def solidBlock (id : DisplayId) (word : UInt16) : Block :=
  blockOf id Rect.full
    (Raster.readRect (fun _ _ => word) 0 0 screenW screenH)

theorem solidFrameBytes_eq (id : DisplayId) (color : Rgb) :
    solidFrameBytes id color =
      blockBytes id Rect.full
        (Raster.readRect (fun _ _ => color.toRgb565) 0 0 screenW screenH) ++
      closing := by
  have hhead : (List.replicate (screenW * screenH) color.toRgb565).headD 0 =
      color.toRgb565 := rfl
  have hsolid : bodyBytes (List.replicate (screenW * screenH) color.toRgb565) =
      repeatCmd (DisplayId.pixelCount / 2).toUInt32 (pairOf color.toRgb565) := by
    rw [bodyBytes, hhead, List.length_replicate, if_pos (by simp)]
  rw [solidFrameBytes, blockBytes, Raster.readRect_const, hsolid, closing]
  simp only [List.append_assoc]

theorem readStream_solidFrameBytes (id : DisplayId) (color : Rgb) :
    readStream (solidFrameBytes id color) = some [solidBlock id color.toRgb565] := by
  have hlength : (Raster.readRect (fun _ _ => color.toRgb565) 0 0 screenW
      screenH).length = 2 * 65280 := Raster.length_readRect ..
  have hread := readBlock_blockBytes id Rect.full hlength (by omega) (by omega) closing
  rw [solidFrameBytes_eq, readStream_of_block hread, readStream_closing]
  rfl

theorem showTransfer_solidFrameBytes (id : DisplayId) (color : Rgb)
    (screens : Screens) :
    showTransfer screens (solidFrameBytes id color) =
      some (fillScreen screens id color.toRgb565) := by
  rw [showTransfer, readStream_solidFrameBytes, Option.map_some]
  congr 1
  funext other px py
  show paintBlock screens (solidBlock id color.toRgb565) other px py = _
  by_cases hid : other = id
  · have hin : Raster.InRect 0 0 screenW screenH px py <->
        other = id ∧ Framebuffer.OnScreen px py := by
      unfold Raster.InRect Framebuffer.OnScreen
      simp only [hid, true_and]
      omega
    rw [paintBlock_of_display screens (by rw [hid]; rfl)]
    exact (Raster.paint_readRect _ _ _ _ _ _ _ _).trans (if_congr hin rfl rfl)
  · have hbyte : other.toByte ≠ id.toByte := fun h => hid (toByte_inj h)
    rw [paintBlock_of_other screens hbyte, fillScreen, if_neg (fun h => hid h.left)]

/-!
## Both ways agree
-/

/-- Clearing the framebuffer and encoding it leaves, for every reader of the
stream, the screens that a solid frame leaves; and a solid frame takes 56 bytes
of the buffer it is given, or leaves a shorter one as it was. -/
theorem solidFrame_shows_clear (id : DisplayId) (color : Rgb) (fb : Framebuffer)
    (screens : Screens) :
    exists screens' bytes fb',
      encodeFrame id (fb.clear color) = some (bytes, fb') ∧
      showTransfer screens bytes = some screens' ∧
      forall out : List UInt8,
        ((exists e, (encodeSolidFrame id color out).1 = .error e) <->
          out.length < 56) ∧
        (out.length < 56 -> (encodeSolidFrame id color out).2 = out) ∧
        (56 ≤ out.length -> exists frame : List UInt8,
          frame.length = 56 ∧
          encodeSolidFrame id color out = (.ok 56, frame ++ out.drop 56) ∧
          showTransfer screens frame = some screens') := by
  refine ⟨fillScreen screens id color.toRgb565, _, _, encodeFrame_eq id _,
    showTransfer_clear id color fb screens, ?_⟩
  intro out
  have hshort : out.length < 56 -> encodeSolidFrame id color out =
      (.error (.outputTooSmall 56 out.length), out) := fun h => if_pos h
  have hlong : 56 ≤ out.length -> encodeSolidFrame id color out =
      (.ok 56, solidFrameBytes id color ++ out.drop 56) :=
    fun h => encodeSolidFrame_ok id color h
  refine ⟨⟨?_, fun h => ⟨_, by rw [hshort h]⟩⟩, fun h => by rw [hshort h],
    fun h => ⟨_, length_solidFrameBytes id color, hlong h,
      showTransfer_solidFrameBytes id color screens⟩⟩
  rintro ⟨e, he⟩
  by_contra hle
  rw [hlong (Nat.le_of_not_lt hle)] at he
  cases he

end Display
end OpenMk3
