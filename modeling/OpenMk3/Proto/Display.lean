import OpenMk3.Library.Buffers
import OpenMk3.Library.Words
import OpenMk3.Proto.Types

/-!
# Display command-stream encoders

The header and command encoders of the display protocol.  Each encoder checks
the length of its output buffer before it writes, so a failed encoder leaves
the buffer as it was.
-/

namespace OpenMk3
namespace Proto

open Library

/-- Size of the header sent before a framed rectangle. -/
@[simp] abbrev displayHeaderLen : Nat := 32

@[simp] abbrev displayCmdLen : Nat := 8

/-- Rectangle to refresh, in pixels. -/
structure Rect where
  x : UInt16
  y : UInt16
  w : UInt16
  h : UInt16
deriving DecidableEq, Repr

def Rect.full : Rect := { x := 0, y := 0, w := 480, h := 272 }

/-- An encoder writing into a borrowed byte buffer. -/
abbrev Encoder (α : Type) : Type := Writer ProtoError UInt8 α

/-!
## Header
-/

/-- Write the 32-byte frame header for a rectangle of one display. -/
def encodeHeader (display : DisplayId) (rect : Rect) : Encoder Unit := fun out =>
  if out.length < displayHeaderLen then
    (.error (.outputTooSmall displayHeaderLen out.length), out)
  else
    let out := List.replicate displayHeaderLen 0 ++ out.drop displayHeaderLen
    let out := out.set 0 0x84
    let out := out.set 1 0x00
    let out := out.set 2 display.toByte
    let out := out.set 3 0x60
    let out := copyAt out 16 (toBeBytes rect.x)
    let out := copyAt out 18 (toBeBytes rect.y)
    let out := copyAt out 20 (toBeBytes rect.w)
    let out := copyAt out 22 (toBeBytes rect.h)
    (.ok (), out)

def headerBytes (display : DisplayId) (rect : Rect) : List UInt8 :=
  [0x84, 0x00, display.toByte, 0x60, 0, 0, 0, 0, 0, 0, 0, 0, 0, 0, 0, 0,
    hiByte rect.x, loByte rect.x, hiByte rect.y, loByte rect.y,
    hiByte rect.w, loByte rect.w, hiByte rect.h, loByte rect.h,
    0, 0, 0, 0, 0, 0, 0, 0]

@[simp] theorem length_headerBytes (display : DisplayId) (rect : Rect) :
    (headerBytes display rect).length = displayHeaderLen := rfl

theorem encodeHeader_ok (display : DisplayId) (rect : Rect) {out : List UInt8}
    (h : displayHeaderLen ≤ out.length) :
    encodeHeader display rect out =
      (.ok (), headerBytes display rect ++ out.drop displayHeaderLen) := by
  rw [encodeHeader, if_neg (Nat.not_lt.mpr h)]
  rfl

/-!
## Commands
-/

/-- Write one 8-byte command at the start of the buffer. -/
def writeCmd (cmd : List UInt8) : Encoder Nat := fun out =>
  if out.length < displayCmdLen then
    (.error (.outputTooSmall displayCmdLen out.length), out)
  else
    (.ok displayCmdLen, copyAt out 0 cmd)

theorem writeCmd_ok {cmd out : List UInt8} (hcmd : cmd.length = displayCmdLen)
    (h : displayCmdLen ≤ out.length) :
    writeCmd cmd out = (.ok displayCmdLen, cmd ++ out.drop displayCmdLen) := by
  rw [writeCmd, if_neg (Nat.not_lt.mpr h), copyAt_zero, hcmd]

/-- Opcode `0x00`, the 24-bit pair count, and four zero bytes. -/
def blitCmd (pairCount : UInt32) : List UInt8 :=
  0x00 :: toBeBytes24 pairCount ++ [0, 0, 0, 0]

/-- Opcode `0x01`, the 24-bit count, and the pixel pair. -/
def repeatCmd (count : UInt32) (pairBe : Vector UInt8 4) : List UInt8 :=
  0x01 :: toBeBytes24 count ++ pairBe.toList

def flushCmd : List UInt8 := [0x03, 0, 0, 0, 0, 0, 0, 0]

def endCmd : List UInt8 := [0x40, 0, 0, 0, 0, 0, 0, 0]

def encodeBlitCmd (pairCount : UInt32) : Encoder Nat :=
  writeCmd (blitCmd pairCount)

def encodeRepeatCmd (count : UInt32) (pairBe : Vector UInt8 4) : Encoder Nat :=
  writeCmd (repeatCmd count pairBe)

def encodeFlushCmd : Encoder Nat := writeCmd flushCmd

def encodeEndCmd : Encoder Nat := writeCmd endCmd

@[simp] theorem length_blitCmd (pairCount : UInt32) :
    (blitCmd pairCount).length = displayCmdLen := rfl

@[simp] theorem length_repeatCmd (count : UInt32) (pairBe : Vector UInt8 4) :
    (repeatCmd count pairBe).length = displayCmdLen := by
  simp [repeatCmd, toBeBytes24]

theorem encodeBlitCmd_ok (pairCount : UInt32) {out : List UInt8}
    (h : displayCmdLen ≤ out.length) :
    encodeBlitCmd pairCount out =
      (.ok displayCmdLen, blitCmd pairCount ++ out.drop displayCmdLen) :=
  writeCmd_ok rfl h

@[simp] theorem length_flushCmd : flushCmd.length = displayCmdLen := rfl

@[simp] theorem length_endCmd : endCmd.length = displayCmdLen := rfl

theorem encodeRepeatCmd_ok (count : UInt32) (pairBe : Vector UInt8 4)
    {out : List UInt8} (h : displayCmdLen ≤ out.length) :
    encodeRepeatCmd count pairBe out =
      (.ok displayCmdLen, repeatCmd count pairBe ++ out.drop displayCmdLen) :=
  writeCmd_ok (length_repeatCmd count pairBe) h

theorem encodeFlushCmd_ok {out : List UInt8} (h : displayCmdLen ≤ out.length) :
    encodeFlushCmd out =
      (.ok displayCmdLen, flushCmd ++ out.drop displayCmdLen) :=
  writeCmd_ok rfl h

theorem encodeEndCmd_ok {out : List UInt8} (h : displayCmdLen ≤ out.length) :
    encodeEndCmd out = (.ok displayCmdLen, endCmd ++ out.drop displayCmdLen) :=
  writeCmd_ok rfl h

/-!
## Full-frame solid color
-/

/-- The bytes of a pixel pair of one color, as a command carries them. -/
def pairOf (word : UInt16) : Vector UInt8 4 :=
  #v[hiByte word, loByte word, hiByte word, loByte word]

@[simp] abbrev solidFrameLen : Nat := displayHeaderLen + 3 * displayCmdLen

/-- Write a full-frame solid-color clear and return its length. -/
def encodeSolidFrame (display : DisplayId) (color : Rgb) : Encoder Nat := fun out =>
  if out.length < solidFrameLen then
    (.error (.outputTooSmall solidFrameLen out.length), out)
  else
    let pixels := (DisplayId.pixelCount / 2).toUInt32
    let pair := pairOf color.toRgb565
    (encodeHeader display Rect.full).andThen
      (fun _ =>
        let off := displayHeaderLen
        (Writer.onSuffix off (encodeRepeatCmd pixels pair)).andThen fun n =>
          let off := off + n
          (Writer.onSuffix off encodeFlushCmd).andThen fun n =>
            let off := off + n
            (Writer.onSuffix off encodeEndCmd).andThen fun n =>
              let off := off + n
              fun out => (.ok off, out))
      out

def solidFrameBytes (display : DisplayId) (color : Rgb) : List UInt8 :=
  headerBytes display Rect.full ++
    repeatCmd (DisplayId.pixelCount / 2).toUInt32 (pairOf color.toRgb565) ++
    flushCmd ++ endCmd

@[simp] theorem length_solidFrameBytes (display : DisplayId) (color : Rgb) :
    (solidFrameBytes display color).length = solidFrameLen := by
  simp [solidFrameBytes]

/-- On a long enough buffer the frame overwrites exactly its own length. -/
theorem encodeSolidFrame_ok (display : DisplayId) (color : Rgb)
    {out : List UInt8} (h : solidFrameLen ≤ out.length) :
    encodeSolidFrame display color out =
      (.ok solidFrameLen,
        solidFrameBytes display color ++ out.drop solidFrameLen) := by
  simp only [solidFrameLen, displayHeaderLen, displayCmdLen] at h
  have hheader : encodeHeader display Rect.full out =
      (.ok (), headerBytes display Rect.full ++ out.drop displayHeaderLen) :=
    encodeHeader_ok display Rect.full (by simp only [displayHeaderLen]; omega)
  have hroom1 : displayCmdLen ≤ (out.drop displayHeaderLen).length := by
    simp only [displayHeaderLen, displayCmdLen, List.length_drop]
    omega
  have hroom2 : displayCmdLen ≤
      (out.drop (displayHeaderLen + displayCmdLen)).length := by
    simp only [displayHeaderLen, displayCmdLen, List.length_drop]
    omega
  have hroom3 : displayCmdLen ≤
      (out.drop (displayHeaderLen + displayCmdLen + displayCmdLen)).length := by
    simp only [displayHeaderLen, displayCmdLen, List.length_drop]
    omega
  have hlen2 : (headerBytes display Rect.full ++
      repeatCmd (DisplayId.pixelCount / 2).toUInt32
        (pairOf color.toRgb565)).length = displayHeaderLen + displayCmdLen := by
    simp
  have hlen3 : (headerBytes display Rect.full ++
      repeatCmd (DisplayId.pixelCount / 2).toUInt32 (pairOf color.toRgb565) ++
      flushCmd).length = displayHeaderLen + displayCmdLen + displayCmdLen := by
    simp
  have hrepeat := Writer.onSuffix_append
    (length_headerBytes display Rect.full)
    (encodeRepeatCmd_ok (DisplayId.pixelCount / 2).toUInt32
      (pairOf color.toRgb565) hroom1)
  have hflush := Writer.onSuffix_append hlen2 (encodeFlushCmd_ok hroom2)
  have hend := Writer.onSuffix_append hlen3 (encodeEndCmd_ok hroom3)
  rw [encodeSolidFrame, if_neg (by simp; omega), Writer.andThen_ok hheader,
    Writer.andThen_ok hrepeat, List.drop_drop, ← List.append_assoc,
    Writer.andThen_ok hflush, List.drop_drop, ← List.append_assoc,
    Writer.andThen_ok hend, List.drop_drop, ← List.append_assoc]
  rfl

/-!
## Pixel payload
-/

/-- Write native-endian pixels as big-endian bytes, from the `i`-th pixel on. -/
def packFrom (i : Nat) : List UInt16 -> List UInt8 -> List UInt8
  | [], out => out
  | w :: rest, out =>
      packFrom (i + 1) rest
        ((out.set (i * 2) (hiByte w)).set (i * 2 + 1) (loByte w))

/--
Convert native-endian RGB565 pixels into a big-endian byte stream; `none` when
the debug assertion on the buffer length fails.
-/
def packRgb565Be (words : List UInt16) (out : List UInt8) :
    Option (List UInt8) :=
  if out.length ≥ words.length * 2 then some (packFrom 0 words out) else none

theorem packFrom_append (words : List UInt16) :
    forall (done out : List UInt8) (i : Nat), done.length = 2 * i ->
      out.length = 2 * words.length ->
        packFrom i words (done ++ out) = done ++ words.flatMap toBeBytes := by
  induction words with
  | nil =>
      intro done out i hdone hout
      have hnil : out = [] := List.length_eq_zero_iff.mp hout
      rw [hnil]
      rfl
  | cons w rest ih =>
      intro done out i hdone hout
      rcases out with _ | ⟨a, _ | ⟨b, tail⟩⟩
      · simp at hout
      · simp at hout
        omega
      · have hset : ((done ++ a :: b :: tail).set (i * 2) (hiByte w)).set
            (i * 2 + 1) (loByte w) = (done ++ toBeBytes w) ++ tail := by
          have h1 : i * 2 = done.length := by omega
          rw [h1]
          simp [toBeBytes]
        rw [packFrom, hset, ih (done ++ toBeBytes w) tail (i + 1)
          (by simp [toBeBytes]; omega) (by simp at hout; omega)]
        simp

theorem packRgb565Be_of_length {words : List UInt16} {out : List UInt8}
    (h : out.length = 2 * words.length) :
    packRgb565Be words out = some (words.flatMap toBeBytes) := by
  rw [packRgb565Be, if_pos (by omega)]
  have hpack := packFrom_append words [] out 0 rfl h
  rw [List.nil_append] at hpack
  rw [hpack, List.nil_append]

end Proto
end OpenMk3
