import OpenMk3.Display.Framebuffer
import OpenMk3.Proto.Display

/-!
# Framebuffer encoder

The encoder turns the dirty tiles of a framebuffer into one bulk transfer: a
command block for each run of dirty tiles, then a flush and an end command.
Slices, subtractions, unwrapped results and the debug assertion of the source
are partial here; `none` stands for a panic.
-/

namespace OpenMk3
namespace Display

open Library Proto

def rectOf (x y w h : Nat) : Rect :=
  { x := x.toUInt16, y := y.toUInt16, w := w.toUInt16, h := h.toUInt16 }

/-- Append the command block of one rectangle to the transfer. -/
def encodeRun (id : DisplayId) (fb : Framebuffer) (x y w h : Nat)
    (out : List UInt8) : Option (List UInt8) := do
  let headerOffset := out.length
  let out := resize out (headerOffset + displayHeaderLen) 0
  let (_, out) <- Writer.unwrap
    (Writer.onSuffix headerOffset (encodeHeader id (rectOf x y w h)) out)
  -- Collect the pixels of the rectangle into a contiguous vector.
  let words <- (List.range' y h).foldlM
    (fun words yy => do
      let row <- slice? fb.pixels.toList (yy * screenW + x) (yy * screenW + x + w)
      some (words ++ row))
    []
  let first <- words[0]?
  let pairs := (words.length / 2).toUInt32
  let cmd := List.replicate displayCmdLen 0
  if words.all fun p => p == first then
    let (_, cmd) <- Writer.unwrap (encodeRepeatCmd pairs (pairOf first) cmd)
    some (out ++ cmd)
  else
    let (_, cmd) <- Writer.unwrap (encodeBlitCmd pairs cmd)
    let out := out ++ cmd
    let payLen := words.length * 2
    let payOffset := out.length
    let out := resize out (payOffset + payLen) 0
    let payload <- packRgb565Be words (out.drop payOffset)
    let out := out.take payOffset ++ payload
    -- The debug assertion on the command granularity of the payload.
    if payLen % displayCmdLen = 0 then some out else none

/-- Encode the dirty tiles and clear the tracker. -/
def encodeFrame (id : DisplayId) (fb : Framebuffer) :
    Option (List UInt8 × Framebuffer) := do
  let out <- fb.dirty.runs.foldlM
    (fun out run => do
      let (row, c0, c1) := run
      let y := row * tile
      let x := c0 * tile
      let h := min tile (<- sub? screenH y)
      let w := min (((<- sub? c1 c0) + 1) * tile) (<- sub? screenW x)
      encodeRun id fb x y w h out)
    []
  let tail := List.replicate (displayCmdLen * 2) 0
  let off := 0
  let (n, tail) <- Writer.unwrap (Writer.onSuffix off encodeFlushCmd tail)
  let off := off + n
  let (n, tail) <- Writer.unwrap (Writer.onSuffix off encodeEndCmd tail)
  let off := off + n
  some (out ++ tail.take off, { fb with dirty := fb.dirty.clear })

/-!
## The bytes of a block
-/

/-- The command of a block and its payload. -/
def bodyBytes (words : List UInt16) : List UInt8 :=
  let pairs := (words.length / 2).toUInt32
  if words.all fun p => p == words.headD 0 then
    repeatCmd pairs (pairOf (words.headD 0))
  else
    blitCmd pairs ++ words.flatMap toBeBytes

theorem bodyBytes_of_solid {first : UInt16} {rest : List UInt16}
    (h : ((first :: rest).all fun p => p == first) = true) :
    bodyBytes (first :: rest) =
      repeatCmd ((first :: rest).length / 2).toUInt32 (pairOf first) :=
  if_pos h

theorem bodyBytes_of_mixed {first : UInt16} {rest : List UInt16}
    (h : ¬ ((first :: rest).all fun p => p == first) = true) :
    bodyBytes (first :: rest) =
      blitCmd ((first :: rest).length / 2).toUInt32 ++
        (first :: rest).flatMap toBeBytes :=
  if_neg h

/-- A body is one repeat command of a solid list, or a blit of its words. -/
theorem bodyBytes_cases {words : List UInt16} {n : Nat}
    (hn : words.length = 2 * n) (hpos : 0 < n) :
    (exists word, words = List.replicate (2 * n) word ∧
      bodyBytes words = repeatCmd n.toUInt32 (pairOf word)) ∨
    bodyBytes words = blitCmd n.toUInt32 ++ words.flatMap toBeBytes := by
  have hpairs : words.length / 2 = n := by omega
  cases words with
  | nil =>
      simp only [List.length_nil] at hn
      omega
  | cons first rest =>
      by_cases hsolid : ((first :: rest).all fun p => p == first) = true
      · refine Or.inl ⟨first, ?_, ?_⟩
        · rw [← hn]
          apply List.eq_replicate_of_mem
          simpa using hsolid
        · rw [bodyBytes_of_solid hsolid, hpairs]
      · rw [bodyBytes_of_mixed hsolid, hpairs]
        exact Or.inr rfl

/-- The header, command and payload of a rectangle of pixels. -/
def blockBytes (id : DisplayId) (rect : Rect) (words : List UInt16) :
    List UInt8 :=
  headerBytes id rect ++ bodyBytes words

def closing : List UInt8 := flushCmd ++ endCmd

theorem slice_row (fb : Framebuffer) {x w yy : Nat} (hx : x + w ≤ screenW)
    (hy : yy < screenH) :
    slice? fb.pixels.toList (yy * screenW + x) (yy * screenW + x + w) =
      some ((List.range' x w).map fun px => fb.pixelAt px yy) := by
  have hlen : yy * screenW + x + w ≤ fb.pixels.toList.length := by
    rw [Vector.length_toList]
    simp only [screenW, screenH, DisplayId.width, DisplayId.height,
      pixelCount] at hx hy ⊢
    omega
  rw [slice?_of_le (Nat.le_add_right _ _) hlen]
  congr 1
  apply List.ext_getElem?
  intro i
  by_cases hi : i < w
  · have hidx : yy * screenW + (x + i) < pixelCount :=
      Framebuffer.index_lt_of_onScreen ⟨by omega, hy⟩
    have hassoc : yy * screenW + x + i = yy * screenW + (x + i) := by omega
    rw [Nat.add_sub_cancel_left, List.getElem?_take_of_lt hi,
      List.getElem?_drop, Vector.getElem?_toList, hassoc,
      Vector.getElem?_eq_getElem hidx]
    simp [hi, Framebuffer.pixelAt, Vector.getElem?_eq_getElem hidx]
  · rw [List.getElem?_eq_none (by rw [List.length_take]; omega),
      List.getElem?_eq_none (by simpa using hi)]

theorem collect_rows (fb : Framebuffer) {x y w h : Nat} (hx : x + w ≤ screenW)
    (hy : y + h ≤ screenH) :
    (List.range' y h).foldlM
        (fun words yy => do
          let row <- slice? fb.pixels.toList (yy * screenW + x)
            (yy * screenW + x + w)
          some (words ++ row))
        [] =
      some (Raster.readRect fb.pixelAt x y w h) := by
  rw [foldlM_append_eq_some _
    (fun yy => (List.range' x w).map fun px => fb.pixelAt px yy)]
  · rfl
  · intro yy hyy words
    rw [List.mem_range'_1] at hyy
    rw [slice_row fb hx (by omega)]
    rfl

/-- A block of a non-empty rectangle of the screen is appended as a whole. -/
theorem encodeRun_eq (id : DisplayId) (fb : Framebuffer) {x y w h : Nat}
    (hx : x + w ≤ screenW) (hy : y + h ≤ screenH) (hpos : 0 < w * h)
    (hfour : w * h % 4 = 0) (out : List UInt8) :
    encodeRun id fb x y w h out =
      some (out ++ blockBytes id (rectOf x y w h)
        (Raster.readRect fb.pixelAt x y w h)) := by
  unfold encodeRun
  rw [collect_rows fb hx hy]
  generalize hwords : Raster.readRect fb.pixelAt x y w h = words
  have hlen : words.length = w * h := by
    rw [← hwords]
    exact Raster.length_readRect _ _ _ _ _
  have hroom : displayHeaderLen ≤
      (List.replicate displayHeaderLen (0 : UInt8)).length := by
    simp
  have hheader := Writer.onSuffix_append (rfl : out.length = out.length)
    (encodeHeader_ok id (rectOf x y w h) hroom)
  cases words with
  | nil =>
      simp only [List.length_nil] at hlen
      omega
  | cons first rest =>
      simp only [resize_length_add, hheader, Writer.unwrap, Option.bind_eq_bind,
        Option.bind_some, List.getElem?_cons_zero, blockBytes]
      by_cases hsolid : (first :: rest).all (fun p => p == first) = true
      · rw [if_pos hsolid, bodyBytes_of_solid hsolid, encodeRepeatCmd_ok _ _ (by simp)]
        simp
      · rw [if_neg hsolid, bodyBytes_of_mixed hsolid, encodeBlitCmd_ok _ (by simp)]
        have hroom' : (List.replicate ((first :: rest).length * 2)
            (0 : UInt8)).length = 2 * (first :: rest).length := by
          rw [List.length_replicate]
          omega
        have hpack := packRgb565Be_of_length hroom'
        have hmod : (first :: rest).length * 2 % 8 = 0 := by omega
        simp only [Option.bind_some, List.drop_left, List.take_left, hpack,
          displayCmdLen, if_pos hmod]
        simp

/-!
## The bytes of a transfer
-/

/-- The rectangle of pixels that a run of tiles covers. -/
def runRect (run : Nat × Nat × Nat) : Nat × Nat × Nat × Nat :=
  (run.2.1 * tile, run.1 * tile, (run.2.2 - run.2.1 + 1) * tile, tile)

def runBytes (id : DisplayId) (fb : Framebuffer) (run : Nat × Nat × Nat) :
    List UInt8 :=
  let (x, y, w, h) := runRect run
  blockBytes id (rectOf x y w h) (Raster.readRect fb.pixelAt x y w h)

def frameBytes (id : DisplayId) (fb : Framebuffer) : List UInt8 :=
  fb.dirty.runs.flatMap (runBytes id fb) ++ closing

/-- A run of dirty tiles lies on the screen. -/
structure RunOnScreen (run : Nat × Nat × Nat) : Prop where
  row_lt : run.1 < rows
  le : run.2.1 ≤ run.2.2
  lt : run.2.2 < cols

theorem runOnScreen_of_mem {d : DirtyTracker} {run : Nat × Nat × Nat}
    (h : run ∈ d.runs) : RunOnScreen run := by
  have hrun := DirtyTracker.mem_runs_iff.mp h
  exact ⟨hrun.left, hrun.right.le, hrun.right.lt⟩

/-- What the bounds of a run give for its rectangle. -/
structure RectFits (row c0 c1 : Nat) : Prop where
  le : c0 ≤ c1
  y_le : row * tile ≤ screenH
  x_le : c0 * tile ≤ screenW
  height : min tile (screenH - row * tile) = tile
  width : min ((c1 - c0 + 1) * tile) (screenW - c0 * tile) = (c1 - c0 + 1) * tile
  right : c0 * tile + (c1 - c0 + 1) * tile ≤ screenW
  bottom : row * tile + tile ≤ screenH

theorem RunOnScreen.rectFits {row c0 c1 : Nat} (h : RunOnScreen (row, c0, c1)) :
    RectFits row c0 c1 := by
  rcases h with ⟨hrow, hle, hlt⟩
  simp only [rows, cols] at hrow hle hlt
  refine ⟨hle, ?_, ?_, ?_, ?_, ?_, ?_⟩
  all_goals
    simp only [tile, screenW, screenH, DisplayId.width, DisplayId.height]
    omega

/-- The block of a run is appended as a whole. -/
theorem encodeRun_of_fits (id : DisplayId) (fb : Framebuffer) {row c0 c1 : Nat}
    (h : RectFits row c0 c1) (out : List UInt8) :
    encodeRun id fb (c0 * tile) (row * tile) ((c1 - c0 + 1) * tile) tile out =
      some (out ++ runBytes id fb (row, c0, c1)) := by
  apply encodeRun_eq id fb h.right h.bottom
  · simp only [tile]
    omega
  · simp only [tile]
    omega

/-- Encoding never panics, sends the frame's bytes and cleans every tile. -/
theorem encodeFrame_eq (id : DisplayId) (fb : Framebuffer) :
    encodeFrame id fb =
      some (frameBytes id fb, { fb with dirty := fb.dirty.clear }) := by
  unfold encodeFrame
  rw [foldlM_append_eq_some _ (runBytes id fb)]
  · rfl
  · rintro ⟨row, c0, c1⟩ hmem out
    have hfits := (runOnScreen_of_mem hmem).rectFits
    simp only [sub?_of_le hfits.y_le, sub?_of_le hfits.le, sub?_of_le hfits.x_le,
      hfits.width, hfits.height, Option.bind_eq_bind, Option.bind_some]
    exact encodeRun_of_fits id fb hfits out

theorem encodeFrame_clears {id : DisplayId} {fb fb' : Framebuffer}
    {bytes : List UInt8} (h : encodeFrame id fb = some (bytes, fb')) :
    fb'.pixels = fb.pixels ∧ forall c r, fb'.dirty.isTileDirty c r = false := by
  rw [encodeFrame_eq] at h
  cases h
  exact ⟨rfl, DirtyTracker.isTileDirty_clear fb.dirty⟩

end Display
end OpenMk3
