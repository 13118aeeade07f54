import OpenMk3.Library.Raster
import OpenMk3.Proto.Parsing

/-!
# What the reports parse to

A pad report as a list of entries with a rest too short for one, and a controls
report as its fields, each with what the parser makes of it.
-/

namespace OpenMk3
namespace Proto

open Library

/-!
## Pad reports
-/

namespace PadEntry

/-- The entry of an unused slot. -/
def empty : PadEntry := { pad := 0, lo := 0, hi := 0 }

/-- The entry is no unused slot. -/
def used (e : PadEntry) : Bool := !(e.pad = 0 ∧ e.pressure = 0)

/-- The entry names no pad. -/
def bad (e : PadEntry) : Bool := padCount ≤ e.pad.toNat

theorem sample?_of_not_bad {e : PadEntry} (h : e.bad = false) :
    (e.sample?).map (fun s => (s.pad.val, s.pressure)) =
      if e.used then some (e.pad.toNat, e.pressure) else none := by
  have hlt : e.pad.toNat < padCount := by
    simpa [bad] using h
  by_cases hempty : e.pad = 0 ∧ e.pressure = 0
  · rw [sample?_of_empty hempty, used]
    simp [hempty]
  · rw [sample?_of_pad (p := ⟨e.pad.toNat, hlt⟩) hempty rfl, used]
    simp [hempty]

end PadEntry

/-- The bytes of a pad report. -/
def padReport (es : List PadEntry) (tail : List UInt8) : List UInt8 :=
  reportInPads :: (es.flatMap PadEntry.toBytes ++ tail)

theorem chunksExact_append_tail (es : List PadEntry) {tail : List UInt8}
    (htail : tail.length ≤ 2) : chunksExact (es.flatMap PadEntry.toBytes ++ tail) = es := by
  induction es with
  | nil =>
      rcases tail with _ | ⟨a, _ | ⟨b, _ | ⟨c, rest⟩⟩⟩
      · rfl
      · rfl
      · rfl
      · simp at htail
  | cons e rest ih =>
      show { pad := e.pad, lo := e.lo, hi := e.hi } ::
        chunksExact (rest.flatMap PadEntry.toBytes ++ tail) = e :: rest
      rw [ih]

/-- The first entry that names no pad decides; without one, the used entries are
the samples. -/
theorem parseEntries_eq (es : List PadEntry) :
    parseEntries es =
      match es.find? PadEntry.bad with
      | some e => .error (.badPad e.pad)
      | none => .ok (es.filterMap PadEntry.sample?) := by
  induction es with
  | nil => rfl
  | cons e rest ih =>
      rw [parseEntries]
      by_cases hempty : e.pad = 0 ∧ e.pressure = 0
      · have hgood : e.bad = false := by
          rw [PadEntry.bad, hempty.left]
          rfl
        rw [if_pos hempty, ih, List.find?_cons_of_neg (by simp [hgood]),
          List.filterMap_cons_none (PadEntry.sample?_of_empty hempty)]
      · rw [if_neg hempty]
        by_cases hlt : e.pad.toNat < padCount
        · have hgood : e.bad = false := by
            simpa [PadEntry.bad] using hlt
          have hsample := PadEntry.sample?_of_pad (p := ⟨e.pad.toNat, hlt⟩) hempty rfl
          rw [dif_pos hlt, ih, List.find?_cons_of_neg (by simp [hgood]),
            List.filterMap_cons_some hsample]
          cases rest.find? PadEntry.bad with
          | some e' => rfl
          | none => rfl
        · have hbad : e.bad = true := by
            simpa [PadEntry.bad] using hlt
          rw [dif_neg hlt, List.find?_cons_of_pos hbad]

theorem parse_padReport (es : List PadEntry) {tail : List UInt8}
    (htail : tail.length ≤ 2) :
    parse (padReport es tail) =
      (parseEntries es).map fun samples => .pads { samples := samples } := by
  have hne : ¬ reportInPads = reportInControls := by
    decide
  rw [padReport, parse, if_neg hne, if_pos rfl, parsePads, List.tail_cons,
    chunksExact_append_tail es htail]
  cases parseEntries es with
  | error err => rfl
  | ok samples => rfl

theorem map_samples_of_no_bad {es : List PadEntry}
    (h : es.find? PadEntry.bad = none) :
    (es.filterMap PadEntry.sample?).map (fun s => (s.pad.val, s.pressure)) =
      (es.filter PadEntry.used).map fun e => (e.pad.toNat, e.pressure) := by
  rw [List.map_filterMap, <- List.filterMap_eq_map, List.filterMap_filter]
  apply List.filterMap_congr
  intro e he
  exact PadEntry.sample?_of_not_bad (Bool.eq_false_iff.mpr (List.find?_eq_none.mp h e he))

/-- A pad report parses to the first bad pad or to its used entries in order; an
unused entry more or less changes nothing, and no buffer makes the parser panic. -/
theorem parse_padEntries (es : List PadEntry) (tail : List UInt8)
    (htail : tail.length ≤ 2) :
    (forall e, es.find? PadEntry.bad = some e ->
      parse? (padReport es tail) = some (.error (.badPad e.pad))) ∧
    (es.find? PadEntry.bad = none -> exists p : PadsReport,
      parse? (padReport es tail) = some (.ok (.pads p)) ∧
      (p.samples.map fun s => (s.pad.val, s.pressure)) =
        (es.filter PadEntry.used).map fun e => (e.pad.toNat, e.pressure)) ∧
    (forall front back, es = front ++ back ->
      parse? (padReport (front ++ PadEntry.empty :: back) tail) =
        parse? (padReport es tail)) ∧
    forall buf, (parse? buf).isSome := by
  have hparse : parse? (padReport es tail) =
      some ((parseEntries es).map fun samples => .pads { samples := samples }) := by
    rw [parse?_eq, parse_padReport es htail]
  refine ⟨?_, ?_, ?_, fun buf => by rw [parse?_eq]; rfl⟩
  · intro e he
    rw [hparse, parseEntries_eq, he]
    rfl
  · intro hgood
    refine ⟨{ samples := es.filterMap PadEntry.sample? }, ?_, map_samples_of_no_bad hgood⟩
    rw [hparse, parseEntries_eq, hgood]
    rfl
  · rintro front back rfl
    have hbad : PadEntry.empty.bad = false := rfl
    have hnone : PadEntry.empty.sample? = none := rfl
    rw [hparse, parse?_eq, parse_padReport _ htail, parseEntries_eq, parseEntries_eq]
    simp [hbad, hnone]

/-- A pad at its loudest and an unused slot. -/
def loudPad : List PadEntry := [{ pad := 9, lo := 0xfd, hi := 0x4f }, .empty]

theorem parse_padEntries_loudPad :
    exists p : PadsReport, parse? (padReport loudPad [3]) = some (.ok (.pads p)) ∧
      (p.samples.map fun s => (s.pad.val, s.pressure)) = [(9, 0x4ffd)] := by
  rcases (parse_padEntries loudPad [3] (by decide)).right.left rfl with
    ⟨p, hparse, hsamples⟩
  exact ⟨p, hparse, hsamples.trans (by decide)⟩

/-!
## Controls reports
-/

/-- A 16-bit field: a 10-bit value under six bits that are not used. -/
structure Field where
  value : Fin 1024
  spare : Fin 64
deriving DecidableEq, Repr

namespace Field

def word (f : Field) : UInt16 := (f.value.val + 1024 * f.spare.val).toUInt16

def bytes (f : Field) : List UInt8 := [loByte f.word, hiByte f.word]

theorem word_mask (f : Field) : f.word &&& 0x3ff = f.value.val.toUInt16 := by
  have hvalue := f.value.isLt
  have hspare := f.spare.isLt
  have hmask := Nat.and_two_pow_sub_one_eq_mod f.word.toNat 10
  have hword : f.word.toNat = f.value.val + 1024 * f.spare.val :=
    toUInt16_toNat (by omega)
  apply UInt16.toNat_inj.mp
  rw [UInt16.toNat_and, toUInt16_toNat (by omega)]
  show f.word.toNat &&& (2 ^ 10 - 1) = f.value.val
  omega

end Field

/-- The values of a controls report, with the bits the parser leaves out. -/
structure ControlsLayout where
  buttons : BitVec 64
  macros : Vector Field macroEncoderCount
  master : Field
  stripPosition : Field
  stripPressure : Field
  micGain : Field
  headphones : Field
  masterVol : Field

namespace ControlsLayout

/-- The 16-bit fields in the order of their offsets, from 9 on. -/
def fields (l : ControlsLayout) : List Field :=
  l.macros.toList ++ [l.master, l.stripPosition, l.stripPressure, l.micGain,
    l.headphones, l.masterVol]

def bytes (l : ControlsLayout) : List UInt8 :=
  reportInControls :: (leBytes 8 l.buttons.toNat ++ l.fields.flatMap Field.bytes)

/-- The report with the values of the layout. -/
def report (l : ControlsLayout) : ControlsReport :=
  { buttons := l.buttons
    macros := l.macros.map fun f => f.value.val.toUInt16
    master := l.master.value.val.toUInt16
    touchStrip :=
      if l.stripPressure.value.val = 0 then none
      else some (l.stripPosition.value.val.toUInt16,
        l.stripPressure.value.val.toUInt16)
    micGain := l.micGain.value.val.toUInt16
    headphones := l.headphones.value.val.toUInt16
    masterVol := l.masterVol.value.val.toUInt16 }

theorem length_fields (l : ControlsLayout) : l.fields.length = 14 := by
  simp [fields]

theorem length_bytes (l : ControlsLayout) : l.bytes.length = minLen := by
  simp [bytes, List.length_flatMap, Field.bytes, length_fields, minLen]

theorem slice_buttons (l : ControlsLayout) (tail : List UInt8) :
    slice? (l.bytes ++ tail) 1 9 = some (leBytes 8 l.buttons.toNat) := by
  have hlen : 9 ≤ (l.bytes ++ tail).length := by
    rw [List.length_append, length_bytes, minLen]
    omega
  rw [slice?_of_le (by decide) hlen, bytes, List.cons_append, List.drop_one,
    List.tail_cons, List.append_assoc, List.take_left' (leBytes_length 8 _)]

/-- The field at an index, read where the parser reads it. -/
theorem word?_field (l : ControlsLayout) (tail : List UInt8) {i : Nat} {f : Field}
    (hf : l.fields[i]? = some f) :
    word? (l.bytes ++ tail) (9 + i * 2) = some f.value.val.toUInt16 := by
  have hi : i < 14 := by
    rw [<- l.length_fields]
    exact (List.getElem?_eq_some_iff.mp hf).1
  have hat : forall k, k < 2 ->
      (l.bytes ++ tail)[9 + (i * 2 + k)]? = f.bytes[k]? := by
    intro k hk
    have hsplit : l.bytes ++ tail =
        (reportInControls :: leBytes 8 l.buttons.toNat) ++
          (l.fields.flatMap Field.bytes ++ tail) := by
      simp [bytes]
    have hfront : (reportInControls :: leBytes 8 l.buttons.toNat).length = 9 := by
      simp
    have hback : (l.fields.flatMap Field.bytes).length = 28 := by
      simp [List.length_flatMap, Field.bytes, length_fields]
    rw [hsplit, List.getElem?_append_right (by omega), hfront,
      Nat.add_sub_cancel_left, List.getElem?_append_left (by omega),
      Raster.getElem?_flatMap_of_uniform hk _ _ (fun _ _ => rfl), hf]
    rfl
  have hlo : (l.bytes ++ tail)[9 + i * 2]? = some (loByte f.word) := hat 0 (by decide)
  have hhi : (l.bytes ++ tail)[9 + i * 2 + 1]? = some (hiByte f.word) :=
    hat 1 (by decide)
  simp only [word?, hlo, hhi, Option.bind_eq_bind, Option.bind_some, ofLeBytes,
    ofBeBytes_hiByte_loByte, Field.word_mask]

theorem fields_macro (l : ControlsLayout) (i : Fin macroEncoderCount) :
    l.fields[i.val]? = some (l.macros.get i) := by
  rw [fields, List.getElem?_append_left (by simp), Vector.getElem?_toList]
  exact Vector.getElem?_eq_getElem i.isLt

theorem fields_after (l : ControlsLayout) (k : Nat) :
    l.fields[8 + k]? = [l.master, l.stripPosition, l.stripPressure, l.micGain,
      l.headphones, l.masterVol][k]? := by
  rw [fields, List.getElem?_append_right (by simp)]
  simp

theorem parseControls?_bytes (l : ControlsLayout) (tail : List UInt8) :
    parseControls? (l.bytes ++ tail) = some (.ok l.report) := by
  have hlen : ¬ (l.bytes ++ tail).length < minLen := by
    rw [List.length_append, length_bytes]
    omega
  have hmacros : (fun i : Fin macroEncoderCount =>
      word? (l.bytes ++ tail) (9 + i.val * 2)) =
        fun i => pure (l.macros.get i).value.val.toUInt16 := by
    funext i
    exact l.word?_field tail (l.fields_macro i)
  have hmaster := l.word?_field tail (l.fields_after 0)
  have hposition := l.word?_field tail (l.fields_after 1)
  have hpressure := l.word?_field tail (l.fields_after 2)
  have hmic := l.word?_field tail (l.fields_after 3)
  have hphones := l.word?_field tail (l.fields_after 4)
  have hvolume := l.word?_field tail (l.fields_after 5)
  have hnone : l.stripPressure.value.val.toUInt16 = 0 <->
      l.stripPressure.value.val = 0 := by
    have hvalue := l.stripPressure.value.isLt
    rw [<- UInt16.toNat_inj, toUInt16_toNat (by omega)]
    rfl
  have hvector : Vector.ofFn (fun i => (l.macros.get i).value.val.toUInt16) =
      l.macros.map fun f => f.value.val.toUInt16 := by
    apply Vector.ext
    intro i hi
    rw [Vector.getElem_ofFn, Vector.getElem_map]
    rfl
  rw [parseControls?, if_neg hlen, slice_buttons, hmacros, Vector.ofFnM_pure, hvector]
  simp only [hmaster, hposition, hpressure, hmic, hphones, hvolume,
    Option.bind_eq_bind, Option.bind_some, ofLeBytes64_leBytes, hnone, report]
  rfl

end ControlsLayout

/-- A controls report parses to the values of its layout, whatever its unused bits
and its tail; a report shorter than the layout is refused for its length. -/
theorem parse_controlsLayout (l : ControlsLayout) (tail : List UInt8) :
    parse? (l.bytes ++ tail) = some (.ok (.controls l.report)) ∧
      forall body : List UInt8, (reportInControls :: body).length < 37 ->
        parse? (reportInControls :: body) =
          some (.error (.short 37 (reportInControls :: body).length)) := by
  constructor
  · show (parseControls? (l.bytes ++ tail)).map _ = _
    rw [l.parseControls?_bytes]
    rfl
  · intro body hbody
    show (parseControls? (reportInControls :: body)).map _ = _
    have hshort : (reportInControls :: body).length < minLen := hbody
    rw [parseControls?, if_pos hshort]
    rfl

end Proto
end OpenMk3
