import OpenMk3.Library.Words
import OpenMk3.Proto.Types

/-!
# HID input reports

The parsers of the two reports of the interrupt endpoint: controls (`0x01`) and
pad pressures (`0x02`), with the button and encoder differences between
consecutive controls reports.
-/

namespace OpenMk3
namespace Proto

open Library

/-!
## Controls reports
-/

/-- Decoded contents of a controls report. -/
structure ControlsReport where
  buttons : BitVec 64
  macros : Vector UInt16 macroEncoderCount
  master : UInt16
  touchStrip : Option (UInt16 × UInt16)
  micGain : UInt16
  headphones : UInt16
  masterVol : UInt16
deriving DecidableEq, Repr

attribute [ext] ControlsReport

namespace ControlsReport

def default : ControlsReport :=
  { buttons := 0
    macros := Vector.replicate macroEncoderCount 0
    master := 0
    touchStrip := none
    micGain := 0
    headphones := 0
    masterVol := 0 }

/-- The changed buttons since `prev`, with whether they are now pressed. -/
def buttonsDiff (c : ControlsReport) (prev : BitVec 64) :
    List (Fin 64 × Bool) :=
  let changed := c.buttons ^^^ prev
  let now := c.buttons
  (List.finRange 64).filterMap fun i : Fin 64 =>
    if changed.getLsbD i.val then some (i, now.getLsbD i.val) else none

theorem mem_buttonsDiff_iff {c : ControlsReport} {prev : BitVec 64}
    {i : Fin 64} {pressed : Bool} :
    (i, pressed) ∈ c.buttonsDiff prev <->
      c.buttons.getLsbD i.val ≠ prev.getLsbD i.val ∧
        pressed = c.buttons.getLsbD i.val := by
  unfold buttonsDiff
  rw [List.mem_filterMap]
  simp only [BitVec.getLsbD_xor]
  constructor
  · intro h
    rcases h with ⟨j, _, hj⟩
    split at hj
    · rename_i hchanged
      cases hj
      exact ⟨by simpa using hchanged, rfl⟩
    · cases hj
  · intro h
    refine ⟨i, List.mem_finRange i, ?_⟩
    rw [if_pos (by simpa using h.left), h.right]

/-- Rotation in ticks, the shortest way around the 10-bit wrap. -/
def encoderDelta (prev now : UInt16) : Int :=
  -- masking a signed difference with 0x3ff keeps its residue modulo 1024
  let raw := ((now.toNat : Int) - prev.toNat) % 0x400
  if raw > 0x200 then raw - 0x400 else raw

end ControlsReport

example : ControlsReport.encoderDelta 0x3ff 0x001 = 2 ∧
    ControlsReport.encoderDelta 0x001 0x3ff = -2 := by decide

/-!
## Pad reports
-/

/-- One pad pressure; the pad index is in range. -/
structure PadSample where
  pad : Fin padCount
  pressure : UInt16
deriving DecidableEq, Repr

structure PadsReport where
  samples : List PadSample
deriving DecidableEq, Repr

inductive InReport where
  | controls (c : ControlsReport)
  | pads (p : PadsReport)
deriving DecidableEq, Repr

/-!
## Parsers
-/

def minLen : Nat := 1 + 8 + 2 * 9 + 4 + 6

def parseControls (buf : List UInt8) : Except ProtoError ControlsReport :=
  if buf.length < minLen then
    .error (.short minLen buf.length)
  else
    let byte := fun i => buf.getD i 0
    let word := fun i => ofLeBytes (byte i) (byte (i + 1)) &&& 0x3ff
    let stripPos := word 27
    let stripPrs := word 29
    .ok
      { buttons := ofLeBytes64 ((buf.drop 1).take 8)
        macros := Vector.ofFn fun i => word (9 + i.val * 2)
        master := word 25
        touchStrip := if stripPrs = 0 then none else some (stripPos, stripPrs)
        micGain := word 31
        headphones := word 33
        masterVol := word 35 }

/-- One complete 3-byte entry of a pad report body. -/
structure PadEntry where
  pad : UInt8
  lo : UInt8
  hi : UInt8
deriving DecidableEq, Repr

namespace PadEntry

def pressure (e : PadEntry) : UInt16 := ofLeBytes e.lo e.hi

def toBytes (e : PadEntry) : List UInt8 := [e.pad, e.lo, e.hi]

end PadEntry

/-- The complete entries of a body; a last partial one is ignored. -/
def chunksExact : List UInt8 -> List PadEntry
  | pad :: lo :: hi :: rest =>
      { pad := pad, lo := lo, hi := hi } :: chunksExact rest
  | _ => []

def parseEntries : List PadEntry -> Except ProtoError (List PadSample)
  | [] => .ok []
  | e :: rest =>
      if e.pad = 0 ∧ e.pressure = 0 then parseEntries rest -- empty slot
      else if h : e.pad.toNat < padCount then
        (parseEntries rest).map fun samples =>
          { pad := ⟨e.pad.toNat, h⟩, pressure := e.pressure } :: samples
      else .error (.badPad e.pad)

def parsePads (buf : List UInt8) : Except ProtoError PadsReport :=
  (parseEntries (chunksExact buf.tail)).map fun samples =>
    { samples := samples }

/-- Parse a raw transfer; the first byte is the report id. -/
def parse : List UInt8 -> Except ProtoError InReport
  | [] => .error (.short 1 0)
  | id :: body =>
      if id = reportInControls then
        (parseControls (id :: body)).map .controls
      else if id = reportInPads then (parsePads (id :: body)).map .pads
      else .error (.unknownReport id)

private theorem map_eq_ok_iff {e a b : Type} {x : Except e a} {f : a -> b}
    {y : b} : x.map f = .ok y <-> exists v, x = .ok v ∧ f v = y := by
  cases x with
  | error err => simp [Except.map]
  | ok v => simp [Except.map]

theorem parse_eq_controls_iff {buf : List UInt8} {c : ControlsReport} :
    parse buf = .ok (.controls c) <->
      exists body, buf = reportInControls :: body ∧
        parseControls buf = .ok c := by
  cases buf with
  | nil => simp [parse]
  | cons id body =>
      by_cases hcontrols : id = reportInControls
      · rw [parse, if_pos hcontrols, map_eq_ok_iff, hcontrols]
        simp
      · have hno : ¬ exists b, id :: body = reportInControls :: b ∧
            parseControls (id :: body) = .ok c := by
          intro h
          rcases h with ⟨b, hcons, _⟩
          exact hcontrols (List.cons.inj hcons).left
        rw [parse, if_neg hcontrols, iff_false_intro hno, iff_false]
        by_cases hpads : id = reportInPads
        · rw [if_pos hpads, map_eq_ok_iff]
          simp
        · rw [if_neg hpads]
          simp

theorem parse_eq_pads_iff {buf : List UInt8} {p : PadsReport} :
    parse buf = .ok (.pads p) <->
      exists body, buf = reportInPads :: body ∧
        parseEntries (chunksExact body) = .ok p.samples := by
  cases buf with
  | nil => simp [parse]
  | cons id body =>
      by_cases hcontrols : id = reportInControls
      · have hne : ¬ reportInControls = reportInPads := by decide
        rw [parse, if_pos hcontrols, map_eq_ok_iff, hcontrols]
        simp [hne]
      · by_cases hpads : id = reportInPads
        · rw [parse, if_neg hcontrols, if_pos hpads, map_eq_ok_iff, hpads]
          simp only [parsePads, List.tail_cons, map_eq_ok_iff,
            InReport.pads.injEq]
          constructor
          · intro h
            rcases h with ⟨v, ⟨samples, hok, hv⟩, hp⟩
            exact ⟨body, rfl, by rw [hok, ← hp, ← hv]⟩
          · intro h
            rcases h with ⟨b, hcons, hok⟩
            rw [← (List.cons.inj hcons).right] at hok
            exact ⟨p, ⟨p.samples, hok, rfl⟩, rfl⟩
        · rw [parse, if_neg hcontrols, if_neg hpads]
          simp [hpads]

/-!
## Ten-bit values
-/

/-- The range of a parsed analog or encoder value. -/
def TenBit (x : UInt16) : Prop := x.toNat < 0x400

theorem tenBit_mask (x : UInt16) : TenBit (x &&& 0x3ff) := by
  have hmask := Nat.and_two_pow_sub_one_eq_mod x.toNat 10
  have hmod := Nat.mod_lt x.toNat (show 0 < 2 ^ 10 by omega)
  simp only [TenBit, UInt16.toNat_and]
  show x.toNat &&& (2 ^ 10 - 1) < 2 ^ 10
  omega

/-- Every encoder position of the report is a 10-bit value. -/
structure ControlsReport.InRange (c : ControlsReport) : Prop where
  macros : forall i : Fin macroEncoderCount, TenBit (c.macros.get i)
  master : TenBit c.master

theorem inRange_default : ControlsReport.default.InRange := by
  constructor
  · intro i
    have hzero : ControlsReport.default.macros.get i = 0 :=
      Vector.getElem_replicate i.isLt
    simp [hzero, TenBit]
  · simp [ControlsReport.default, TenBit]

theorem inRange_of_parse {buf : List UInt8} {c : ControlsReport}
    (h : parse buf = .ok (.controls c)) : c.InRange := by
  rcases parse_eq_controls_iff.mp h with ⟨_, _, hparse⟩
  unfold parseControls at hparse
  split at hparse
  · cases hparse
  · cases hparse
    constructor
    · intro i
      have hget : forall f : Fin macroEncoderCount -> UInt16,
          (Vector.ofFn f).get i = f i := fun f => Vector.getElem_ofFn i.isLt
      rw [hget]
      exact tenBit_mask _
    · exact tenBit_mask _

/-!
## Entries of a pad report
-/

namespace PadEntry

/-- The sample an entry stands for; none for an empty slot or a bad pad. -/
def sample? (e : PadEntry) : Option PadSample :=
  if e.pad = 0 ∧ e.pressure = 0 then none
  else if h : e.pad.toNat < padCount then
    some { pad := ⟨e.pad.toNat, h⟩, pressure := e.pressure }
  else none

theorem sample?_of_empty {e : PadEntry} (h : e.pad = 0 ∧ e.pressure = 0) :
    e.sample? = none :=
  if_pos h

theorem sample?_of_pad {e : PadEntry} {p : Fin padCount}
    (h : ¬ (e.pad = 0 ∧ e.pressure = 0)) (hpad : e.pad.toNat = p.val) :
    e.sample? = some { pad := p, pressure := e.pressure } := by
  have hlt : e.pad.toNat < padCount := by omega
  rw [sample?, if_neg h, dif_pos hlt]
  congr

theorem pad_of_sample? {e : PadEntry} {s : PadSample}
    (h : e.sample? = some s) :
    e.pad.toNat = s.pad.val ∧ e.pressure = s.pressure := by
  unfold sample? at h
  split at h
  · cases h
  · split at h
    · cases h
      exact ⟨rfl, rfl⟩
    · cases h

end PadEntry

/-- A body parses exactly when every entry names a pad. -/
theorem parseEntries_eq_ok_iff {es : List PadEntry}
    {samples : List PadSample} :
    parseEntries es = .ok samples <->
      (forall e, e ∈ es -> e.pad.toNat < padCount) ∧
        samples = es.filterMap PadEntry.sample? := by
  induction es generalizing samples with
  | nil => simp [parseEntries, eq_comm]
  | cons e rest ih =>
      by_cases hempty : e.pad = 0 ∧ e.pressure = 0
      · have hlt : e.pad.toNat < padCount := by
          rw [hempty.left]
          decide
        rw [parseEntries, if_pos hempty, ih,
          List.filterMap_cons_none (PadEntry.sample?_of_empty hempty)]
        simp [hlt]
      · by_cases hlt : e.pad.toNat < padCount
        · have hsample := PadEntry.sample?_of_pad (p := ⟨e.pad.toNat, hlt⟩)
            hempty rfl
          rw [parseEntries, if_neg hempty, dif_pos hlt, map_eq_ok_iff,
            List.filterMap_cons_some hsample]
          constructor
          · intro h
            rcases h with ⟨tail, hok, hcons⟩
            have hrest := ih.mp hok
            exact ⟨List.forall_mem_cons.mpr ⟨hlt, hrest.left⟩,
              by rw [← hcons, hrest.right]⟩
          · intro h
            exact ⟨_, ih.mpr ⟨(List.forall_mem_cons.mp h.left).right, rfl⟩,
              h.right.symm⟩
        · rw [parseEntries, if_neg hempty, dif_neg hlt]
          simp [hlt]

theorem chunksExact_flatMap_toBytes (es : List PadEntry) :
    chunksExact (es.flatMap PadEntry.toBytes) = es := by
  induction es with
  | nil => rfl
  | cons e rest ih =>
      show { pad := e.pad, lo := e.lo, hi := e.hi } ::
        chunksExact (rest.flatMap PadEntry.toBytes) = e :: rest
      rw [ih]

end Proto
end OpenMk3
