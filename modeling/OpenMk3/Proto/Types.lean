import Mathlib.Data.UInt

/-!
# Shared protocol types

Identifiers, constants, colors and errors of the Mk3 wire protocol, as declared
in the `maschine-proto` crate.  Only the error variants that the modelled
parsers and encoders can raise are carried.
-/

namespace OpenMk3
namespace Proto

/-!
## Report identifiers and counts
-/

/-- Incoming HID report: buttons, encoders, touch strip and volume knobs. -/
def reportInControls : UInt8 := 0x01

/-- Incoming HID report: pad pressure stream. -/
def reportInPads : UInt8 := 0x02

/-- Outgoing HID report: button and encoder LED values. -/
def reportOutButtonLeds : UInt8 := 0x80

/-- Outgoing HID report: pad and touch strip LEDs. -/
def reportOutPadLeds : UInt8 := 0x81

abbrev padCount : Nat := 16

/-- Number of RGB LEDs on the touch strip. -/
abbrev touchstripLedCount : Nat := 25

abbrev macroEncoderCount : Nat := 8

/-!
## Displays
-/

/-- Which of the two color displays. -/
inductive DisplayId where
  | left
  | right
deriving DecidableEq, Repr

namespace DisplayId

/-- The discriminant sent on the wire (`display as u8`). -/
def toByte : DisplayId -> UInt8
  | left => 0
  | right => 1

abbrev width : Nat := 480

abbrev height : Nat := 272

abbrev pixelCount : Nat := width * height

end DisplayId

/-!
## Colors
-/

structure Rgb where
  r : UInt8
  g : UInt8
  b : UInt8
deriving DecidableEq, Repr

namespace Rgb

def black : Rgb := { r := 0, g := 0, b := 0 }

def white : Rgb := { r := 0xff, g := 0xff, b := 0xff }

/-- Encode to the packed RGB565 word, in native endian. -/
def toRgb565 (c : Rgb) : UInt16 :=
  let r := (c.r.toUInt16 >>> 3) &&& 0x1f
  let g := (c.g.toUInt16 >>> 2) &&& 0x3f
  let b := (c.b.toUInt16 >>> 3) &&& 0x1f
  (r <<< 11) ||| (g <<< 5) ||| b

example : black.toRgb565 = 0 ∧ white.toRgb565 = 0xffff := by decide

end Rgb

/-!
## Errors
-/

/-- Errors raised by protocol parsers and encoders. -/
inductive ProtoError where
  | short (need have_ : Nat)
  | unknownReport (id : UInt8)
  | badPad (pad : UInt8)
  | outputTooSmall (need have_ : Nat)
deriving DecidableEq, Repr

end Proto
end OpenMk3
