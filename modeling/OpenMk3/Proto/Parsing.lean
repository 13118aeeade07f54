import OpenMk3.Library.Buffers
import OpenMk3.Proto.HidIn

/-!
# Accesses of the report parsers

The parsers of the input reports with every slice and index as an access that
may fail.  None fails, on any buffer, and the parsers are those that read
without a check.
-/

namespace OpenMk3
namespace Proto

open Library

/-!
## Parsers with their accesses
-/

/-- The 10-bit value of a little-endian pair. -/
def word? (buf : List UInt8) (off : Nat) : Option UInt16 := do
  let lo <- buf[off]?
  let hi <- buf[off + 1]?
  some (ofLeBytes lo hi &&& 0x3ff)

def parseControls? (buf : List UInt8) :
    Option (Except ProtoError ControlsReport) := do
  if buf.length < minLen then
    some (.error (.short minLen buf.length))
  else
    let btn <- slice? buf 1 9
    let macros <- Vector.ofFnM fun i : Fin macroEncoderCount =>
      word? buf (9 + i.val * 2)
    let master <- word? buf 25
    let stripPos <- word? buf 27
    let stripPrs <- word? buf 29
    let touchStrip := if stripPrs = 0 then none else some (stripPos, stripPrs)
    let micGain <- word? buf 31
    let headphones <- word? buf 33
    let masterVol <- word? buf 35
    some (.ok
      { buttons := ofLeBytes64 btn, macros, master, touchStrip, micGain, headphones
        masterVol })

/-- The loop over the chunks of a pad report. -/
def parseChunks? : List (List UInt8) -> List PadSample ->
    Option (Except ProtoError (List PadSample))
  | [], samples => some (.ok samples)
  | chunk :: rest, samples => do
      let pad <- chunk[0]?
      let pressure := ofLeBytes (<- chunk[1]?) (<- chunk[2]?)
      if pad = 0 ∧ pressure = 0 then parseChunks? rest samples -- empty slot
      else if h : pad.toNat < padCount then
        parseChunks? rest (samples ++ [{ pad := ⟨pad.toNat, h⟩, pressure }])
      else some (.error (.badPad pad))

def parsePads? (buf : List UInt8) : Option (Except ProtoError PadsReport) := do
  let body <- slice? buf 1 buf.length
  let samples <- parseChunks? (wholeChunks 3 body) []
  some (samples.map fun samples => { samples })

/-- Parse a raw transfer; `none` stands for a panic. -/
def parse? (buf : List UInt8) : Option (Except ProtoError InReport) := do
  if buf.isEmpty then
    some (.error (.short 1 0))
  else
    let id <- buf[0]?
    if id = reportInControls then
      (parseControls? buf).map fun r => r.map .controls
    else if id = reportInPads then
      (parsePads? buf).map fun r => r.map .pads
    else some (.error (.unknownReport id))

/-!
## No access fails
-/

theorem word?_of_lt {buf : List UInt8} {off : Nat} (h : off + 1 < buf.length) :
    word? buf off =
      some (ofLeBytes (buf.getD off 0) (buf.getD (off + 1) 0) &&& 0x3ff) := by
  have hoff : off < buf.length := by omega
  simp only [word?, List.getD_eq_getElem?_getD, List.getElem?_eq_getElem hoff,
    List.getElem?_eq_getElem h, Option.bind_eq_bind, Option.bind_some,
    Option.getD_some]

theorem parseControls?_eq (buf : List UInt8) :
    parseControls? buf = some (parseControls buf) := by
  unfold parseControls? parseControls
  split
  · rfl
  · next hlen =>
      have hroom : 37 ≤ buf.length := Nat.le_of_not_lt hlen
      have hmacros : (fun i : Fin macroEncoderCount => word? buf (9 + i.val * 2)) =
          fun i => pure (ofLeBytes (buf.getD (9 + i.val * 2) 0)
            (buf.getD (9 + i.val * 2 + 1) 0) &&& 0x3ff) := by
        funext i
        have hi : i.val < 8 := i.isLt
        exact word?_of_lt (by omega)
      rw [hmacros, Vector.ofFnM_pure, slice?_of_le (by omega) (by omega),
        word?_of_lt (by omega), word?_of_lt (by omega), word?_of_lt (by omega),
        word?_of_lt (by omega), word?_of_lt (by omega), word?_of_lt (by omega)]
      rfl

theorem parseChunks?_append (es : List PadEntry) {tail : List UInt8}
    (htail : tail.length < 3) (samples : List PadSample) :
    parseChunks? (wholeChunks 3 (es.flatMap PadEntry.toBytes ++ tail)) samples =
      some ((parseEntries es).map fun rest => samples ++ rest) := by
  induction es generalizing samples with
  | nil =>
      rw [List.flatMap_nil, List.nil_append, wholeChunks_of_lt htail]
      simp [parseChunks?, parseEntries, Except.map]
  | cons e rest ih =>
      have hchunk : e.toBytes.length = 3 := rfl
      rw [List.flatMap_cons, List.append_assoc, wholeChunks_append (by decide) hchunk]
      show (if e.pad = 0 ∧ e.pressure = 0 then _ else _) = _
      rw [parseEntries]
      split
      · exact ih samples
      · split
        · next hlt =>
            rw [ih]
            cases parseEntries rest with
            | error err => rfl
            | ok more => simp [Except.map, PadEntry.pressure]
        · rfl

/-- A body is its complete entries and a rest that is too short for one. -/
theorem exists_entries (body : List UInt8) :
    exists es tail, body = es.flatMap PadEntry.toBytes ++ tail ∧ tail.length < 3 ∧
      chunksExact body = es := by
  induction body using chunksExact.induct with
  | case1 pad lo hi rest ih =>
      rcases ih with ⟨es, tail, hrest, htail, hchunks⟩
      refine ⟨{ pad, lo, hi } :: es, tail, ?_, htail, ?_⟩
      · rw [List.flatMap_cons, List.append_assoc, <- hrest]
        rfl
      · rw [chunksExact, hchunks]
  | case2 body hshort =>
      refine ⟨[], body, rfl, ?_, ?_⟩
      · rcases body with _ | ⟨a, _ | ⟨b, _ | ⟨c, rest⟩⟩⟩
        · simp
        · simp
        · simp
        · exact absurd rfl (hshort a b c rest)
      · rw [chunksExact]
        exact hshort

theorem parsePads?_eq {buf : List UInt8} (h : buf ≠ []) :
    parsePads? buf = some (parsePads buf) := by
  rcases buf with _ | ⟨id, body⟩
  · exact absurd rfl h
  · rcases exists_entries body with ⟨es, tail, hbody, htail, hchunks⟩
    have hslice : slice? (id :: body) 1 (id :: body).length = some body := by
      rw [slice?_of_le (by simp) (Nat.le_refl _)]
      simp
    rw [parsePads?, hslice, parsePads, List.tail_cons, hchunks]
    show (parseChunks? (wholeChunks 3 body) []).bind _ = _
    rw [hbody, parseChunks?_append es htail]
    cases parseEntries es with
    | error err => rfl
    | ok samples => rfl

/-- No access fails: the parsers never panic, on any buffer. -/
theorem parse?_eq (buf : List UInt8) : parse? buf = some (parse buf) := by
  rcases buf with _ | ⟨id, body⟩
  · rfl
  · show (if id = reportInControls then _ else _) = _
    rw [parse]
    split
    · rw [parseControls?_eq]
      rfl
    · split
      · rw [parsePads?_eq (by simp)]
        rfl
      · rfl

end Proto
end OpenMk3
