import OpenMk3.Library.Buffers
import OpenMk3.Proto.Types

/-!
# LED report encoders

The two output reports that drive the LEDs: a byte for every button slot, and a
color for every LED of the touch strip and every pad.  Every access of the
encoders is one that may fail, and none does.
-/

namespace OpenMk3
namespace Proto

open Library

/-!
## Encoders
-/

/-- Number of monochrome LED slots of the button report. -/
abbrev buttonLedSlots : Nat := 62

/-- Length of the pad report without its report id. -/
abbrev padLedPayload : Nat := touchstripLedCount * 3 + padCount * 3

/-- The result of an encoder and the buffer it leaves; `none` for a panic. -/
abbrev Encoded : Type := Option (Except ProtoError Nat × List UInt8)

def encodeButtonLeds (values : Vector UInt8 buttonLedSlots) (out : List UInt8) :
    Encoded :=
  let need := 1 + buttonLedSlots
  if out.length < need then
    some (.error (.outputTooSmall need out.length), out)
  else do
    let out <- put? out 0 reportOutButtonLeds
    let out <- copySlice? out 1 (1 + buttonLedSlots) values.toList
    some (.ok need, out)

/-- One round of the loops over the colors: the three channels at the running
offset, which moves on by three. -/
def putRgb (cursor : Nat × List UInt8) (c : Rgb) : Option (Nat × List UInt8) := do
  let i := cursor.1
  let out <- put? cursor.2 i c.r
  let out <- put? out (i + 1) c.g
  let out <- put? out (i + 2) c.b
  some (i + 3, out)

def encodePadLeds (strip : Vector Rgb touchstripLedCount)
    (pads : Vector Rgb padCount) (out : List UInt8) : Encoded :=
  let need := 1 + padLedPayload
  if out.length < need then
    some (.error (.outputTooSmall need out.length), out)
  else do
    let out <- put? out 0 reportOutPadLeds
    let afterStrip <- strip.toList.foldlM putRgb (1, out)
    let afterPads <- pads.toList.foldlM putRgb afterStrip
    some (.ok need, afterPads.2)

/-- All pads in one color, the strip dark. -/
def encodePadsSolid (color : Rgb) (out : List UInt8) : Encoded :=
  encodePadLeds (Vector.replicate touchstripLedCount .black)
    (Vector.replicate padCount color) out

/-!
## Colors on the wire
-/

namespace Rgb

def bytes (c : Rgb) : List UInt8 := [c.r, c.g, c.b]

theorem length_flatMap_bytes (cs : List Rgb) :
    (cs.flatMap bytes).length = 3 * cs.length := by
  induction cs with
  | nil => rfl
  | cons c rest ih =>
      rw [List.flatMap_cons, List.length_append, ih, List.length_cons]
      show 3 + 3 * rest.length = 3 * (rest.length + 1)
      omega

end Rgb

/-- The consecutive colors of a buffer; a rest too short for one is left out. -/
def readTriples : List UInt8 -> List Rgb
  | r :: g :: b :: rest => { r, g, b } :: readTriples rest
  | _ => []

theorem readTriples_flatMap_bytes (cs : List Rgb) :
    readTriples (cs.flatMap Rgb.bytes) = cs := by
  induction cs with
  | nil => rfl
  | cons c rest ih =>
      show { r := c.r, g := c.g, b := c.b } :: readTriples (rest.flatMap Rgb.bytes) = _
      rw [ih]

theorem putRgb_append (front back : List UInt8) (x y z : UInt8) (c : Rgb) :
    putRgb (front.length, front ++ x :: y :: z :: back) c =
      some ((front ++ c.bytes).length, front ++ c.bytes ++ back) := by
  have hgreen := put?_append (front ++ [c.r]) (z :: back) y c.g
  have hblue := put?_append (front ++ [c.r, c.g]) back z c.b
  simp only [List.length_append, List.length_cons, List.length_nil, List.append_assoc,
    List.cons_append, List.nil_append] at hgreen hblue
  simp [putRgb, put?_append, hgreen, hblue, Rgb.bytes]

/-- The loop writes the colors from its offset on, one after the other. -/
theorem foldlM_putRgb (cs : List Rgb) (front back : List UInt8)
    (h : 3 * cs.length ≤ back.length) :
    cs.foldlM putRgb (front.length, front ++ back) =
      some ((front ++ cs.flatMap Rgb.bytes).length,
        front ++ cs.flatMap Rgb.bytes ++ back.drop (3 * cs.length)) := by
  induction cs generalizing front back with
  | nil => simp
  | cons c rest ih =>
      rw [List.length_cons] at h
      rcases back with _ | ⟨x, _ | ⟨y, _ | ⟨z, back⟩⟩⟩
      · simp at h
      · simp at h
        omega
      · simp at h
        omega
      · have hroom : 3 * rest.length ≤ back.length := by
          simp only [List.length_cons] at h
          omega
        have hdrop : (x :: y :: z :: back).drop (3 * (rest.length + 1)) =
            back.drop (3 * rest.length) := rfl
        rw [List.foldlM_cons, putRgb_append, List.length_cons, hdrop]
        show rest.foldlM putRgb ((front ++ c.bytes).length, front ++ c.bytes ++ back) = _
        rw [ih (front ++ c.bytes) back hroom, List.flatMap_cons, List.append_assoc]

/-!
## Reports in a buffer
-/

/-- What both encoders do: the id and the payload at the front of a buffer that
holds them, nothing to a shorter one. -/
def reportInto (id : UInt8) (payload out : List UInt8) :
    Except ProtoError Nat × List UInt8 :=
  let need := 1 + payload.length
  if out.length < need then (.error (.outputTooSmall need out.length), out)
  else (.ok need, id :: payload ++ out.drop need)

theorem exists_cons_of_need {n : Nat} {out : List UInt8}
    (h : ¬ out.length < 1 + n) :
    exists x back, out = x :: back ∧ n ≤ back.length := by
  cases out with
  | nil =>
      rw [List.length_nil] at h
      omega
  | cons x back =>
      rw [List.length_cons] at h
      exact ⟨x, back, rfl, by omega⟩

theorem encodeButtonLeds_eq (values : Vector UInt8 buttonLedSlots)
    (out : List UInt8) :
    encodeButtonLeds values out =
      some (reportInto reportOutButtonLeds values.toList out) := by
  have hlen : values.toList.length = buttonLedSlots := values.length_toList
  rw [encodeButtonLeds, reportInto, hlen]
  split
  · rfl
  · next hroom =>
      rcases exists_cons_of_need hroom with ⟨x, back, rfl, hback⟩
      have hput : put? (x :: back) 0 reportOutButtonLeds =
          some (reportOutButtonLeds :: back) := put?_append [] back x _
      have hcopy : copySlice? (reportOutButtonLeds :: back) 1
          (1 + values.toList.length) values.toList = _ :=
        copySlice?_append [reportOutButtonLeds] back (hlen.trans_le hback)
      rw [hlen] at hcopy
      simp only [hput, hcopy, Option.bind_eq_bind, Option.bind_some]
      rfl

theorem length_colors (strip : Vector Rgb touchstripLedCount)
    (pads : Vector Rgb padCount) :
    ((strip.toList ++ pads.toList).flatMap Rgb.bytes).length = padLedPayload := by
  rw [Rgb.length_flatMap_bytes, List.length_append, strip.length_toList,
    pads.length_toList]
  rfl

theorem encodePadLeds_eq (strip : Vector Rgb touchstripLedCount)
    (pads : Vector Rgb padCount) (out : List UInt8) :
    encodePadLeds strip pads out =
      some (reportInto reportOutPadLeds
        ((strip.toList ++ pads.toList).flatMap Rgb.bytes) out) := by
  have hlen := length_colors strip pads
  rw [encodePadLeds, reportInto, hlen]
  split
  · rfl
  · next hroom =>
      rcases exists_cons_of_need hroom with ⟨x, back, rfl, hback⟩
      have hput : put? (x :: back) 0 reportOutPadLeds =
          some (reportOutPadLeds :: back) := put?_append [] back x _
      rw [Rgb.length_flatMap_bytes] at hlen
      have hloop : (strip.toList ++ pads.toList).foldlM putRgb
          (1, reportOutPadLeds :: back) = _ :=
        foldlM_putRgb (strip.toList ++ pads.toList) [reportOutPadLeds] back
          (hlen.trans_le hback)
      rw [List.foldlM_append, hlen] at hloop
      simp only [hput, Option.bind_eq_bind, Option.bind_some, <- Option.bind_assoc]
        at hloop ⊢
      rw [hloop]
      rfl

/-!
## What an encoder does to its buffer
-/

/-- An encoded report: it needs `need` bytes, starts with `id` and carries a
payload that `Carries` holds of.  Bytes past the report stay as they were, and a
refused buffer stays as it was altogether. -/
structure Framed (need : Nat) (id : UInt8) (Carries : List UInt8 -> Prop)
    (out : List UInt8) (result : Except ProtoError Nat) (buf : List UInt8) : Prop where
  length_eq : buf.length = out.length
  succeeds_iff : (exists n, result = .ok n) <-> need ≤ out.length
  returned : forall n, result = .ok n -> n = need
  head : forall n, result = .ok n -> buf[0]? = some id
  carries : forall n, result = .ok n -> Carries ((buf.take n).drop 1)
  frame : forall n, result = .ok n -> buf.drop n = out.drop n
  refused : forall err, result = .error err -> buf = out

theorem framed_reportInto (Carries : List UInt8 -> Prop) (id : UInt8)
    {payload : List UInt8} (hcarries : Carries payload) (out : List UInt8) :
    Framed (1 + payload.length) id Carries out (reportInto id payload out).1
      (reportInto id payload out).2 := by
  rw [reportInto]
  split
  · next hshort =>
      exact
        { length_eq := rfl
          succeeds_iff := by
            constructor
            · rintro ⟨n, hok⟩
              cases hok
            · intro hroom
              omega
          returned := fun _ hok => nomatch hok
          head := fun _ hok => nomatch hok
          carries := fun _ hok => nomatch hok
          frame := fun _ hok => nomatch hok
          refused := fun _ _ => rfl }
  · next hroom =>
      have hfront : (id :: payload).length = 1 + payload.length := by
        rw [List.length_cons, Nat.add_comm]
      exact
        { length_eq := by
            rw [List.length_append, hfront, List.length_drop]
            omega
          succeeds_iff := ⟨fun _ => Nat.le_of_not_lt hroom, fun _ => ⟨_, rfl⟩⟩
          returned := by
            rintro n ⟨⟩
            rfl
          head := fun _ _ => rfl
          carries := by
            rintro n ⟨⟩
            rw [List.take_left' hfront]
            exact hcarries
          frame := by
            rintro n ⟨⟩
            rw [List.drop_left' hfront]
          refused := fun _ herror => nomatch herror }

/-- Both encoders are total, frame their report and lose nothing of it: the
colors and the values can be read back from the bytes after the id. -/
theorem ledReports_lossless (strip : Vector Rgb touchstripLedCount)
    (pads : Vector Rgb padCount) (values : Vector UInt8 buttonLedSlots)
    (color : Rgb) (out : List UInt8) :
    (exists result buf, encodePadLeds strip pads out = some (result, buf) ∧
      Framed 124 reportOutPadLeds
        (fun payload => readTriples payload = strip.toList ++ pads.toList)
        out result buf) ∧
    (exists result buf, encodeButtonLeds values out = some (result, buf) ∧
      Framed 63 reportOutButtonLeds (fun payload => payload = values.toList)
        out result buf) ∧
    forall (dark : Vector Rgb touchstripLedCount) (solid : Vector Rgb padCount),
      (forall i, dark.get i = .black) -> (forall i, solid.get i = color) ->
      encodePadsSolid color out = encodePadLeds dark solid out := by
  refine ⟨?_, ?_, ?_⟩
  · have hframed := framed_reportInto
      (fun payload => readTriples payload = strip.toList ++ pads.toList)
      reportOutPadLeds (readTriples_flatMap_bytes (strip.toList ++ pads.toList)) out
    rw [length_colors] at hframed
    exact ⟨_, _, encodePadLeds_eq strip pads out, hframed⟩
  · have hframed := framed_reportInto (fun payload => payload = values.toList)
      reportOutButtonLeds rfl out
    rw [values.length_toList] at hframed
    exact ⟨_, _, encodeButtonLeds_eq values out, hframed⟩
  · intro dark solid hdark hsolid
    have hstrip : dark = Vector.replicate touchstripLedCount .black := by
      apply Vector.ext
      intro i hi
      rw [Vector.getElem_replicate]
      exact hdark ⟨i, hi⟩
    have hpads : solid = Vector.replicate padCount color := by
      apply Vector.ext
      intro i hi
      rw [Vector.getElem_replicate]
      exact hsolid ⟨i, hi⟩
    rw [encodePadsSolid, hstrip, hpads]

end Proto
end OpenMk3
