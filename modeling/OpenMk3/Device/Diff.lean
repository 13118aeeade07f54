import OpenMk3.Device.Event
import OpenMk3.Library.Buffers
import OpenMk3.Library.Transducer

/-!
# Diff task

The task that turns raw HID frames into events: it drops unparsable frames,
diffs controls reports against the last one, and runs every pad through a
hysteresis filter.  Events are sent to a consumer that keeps its end of the
channel open, so every send delivers.
-/

namespace OpenMk3
namespace Device

open Library Proto

/-- Tunable thresholds and behavior at open time. -/
structure OpenOptions where
  padOffThreshold : UInt16
  padOnThreshold : UInt16
  padPressureStep : UInt16
  rawPadStream : Bool
deriving DecidableEq, Repr

def OpenOptions.default : OpenOptions :=
  { padOffThreshold := 0x4005
    padOnThreshold := 0x4010
    padPressureStep := 3
    rawPadStream := false }

structure DiffState where
  controls : Option ControlsReport
  padPressures : Vector UInt16 padCount
  padOn : Vector Bool padCount
  padPeakSinceAttack : Vector UInt16 padCount

def DiffState.default : DiffState :=
  { controls := none
    padPressures := Vector.replicate padCount 0
    padOn := Vector.replicate padCount false
    padPeakSinceAttack := Vector.replicate padCount 0 }

def absDiff (a b : UInt16) : Nat := (a.toNat - b.toNat) + (b.toNat - a.toNat)

def pressureToVelocity (p : UInt16) : UInt8 :=
  let base := 0x4000
  let range := 0x0FFD
  let clipped := min (p.toNat - base) range
  (clipped * 127 / range).toUInt8

/-!
## Controls
-/

def buttonEvents (prev c : ControlsReport) : List Event :=
  (c.buttonsDiff prev.buttons).map fun (bit, pressed) => .button bit pressed

def macroEvents (prev c : ControlsReport) : List Event :=
  (List.finRange macroEncoderCount).filterMap
    fun i : Fin macroEncoderCount =>
      let delta := ControlsReport.encoderDelta (prev.macros.get i) (c.macros.get i)
      if delta ≠ 0 then some (.macroEncoder i delta (c.macros.get i)) else none

def masterEvents (prev c : ControlsReport) : List Event :=
  let mdelta := ControlsReport.encoderDelta prev.master c.master
  if mdelta ≠ 0 then [.masterEncoder mdelta c.master] else []

def stripEvents (prev c : ControlsReport) : List Event :=
  match prev.touchStrip, c.touchStrip with
  | _, some (p, pr) => [.touchStrip p pr]
  | some _, none => [.touchStripReleased]
  | none, none => []

def analogEvents (which : AnalogKnob) (was now : UInt16) : List Event :=
  if was ≠ now then [.analog which now] else []

def controlsEvents (prev c : ControlsReport) : List Event :=
  buttonEvents prev c ++ macroEvents prev c ++ masterEvents prev c ++
    stripEvents prev c ++ analogEvents .micGain prev.micGain c.micGain ++
    analogEvents .headphones prev.headphones c.headphones ++
    analogEvents .masterVolume prev.masterVol c.masterVol

def emitControls : Transducer DiffState ControlsReport Event := fun s c =>
  let prev := s.controls.getD ControlsReport.default
  ({ s with controls := some c }, controlsEvents prev c)

/-!
## Pads
-/

/-- One turn of the loop over the samples of a pads report. -/
def emitPadSample (opts : OpenOptions) : Transducer DiffState PadSample Event :=
  fun s sample =>
    let pad := sample.pad
    let pressure := sample.pressure
    let stored := s.padPressures.set pad.val pressure pad.isLt
    if opts.rawPadStream then
      ({ s with padPressures := stored }, [.pad pad pressure none .pressure])
    else
      let wasOn := s.padOn.get pad
      if wasOn = false ∧ opts.padOnThreshold ≤ pressure then
        ({ s with
            padPressures := stored
            padOn := s.padOn.set pad.val true pad.isLt
            padPeakSinceAttack :=
              s.padPeakSinceAttack.set pad.val pressure pad.isLt },
          [.pad pad pressure (some (pressureToVelocity pressure)) .attack])
      else if wasOn = true ∧ pressure ≤ opts.padOffThreshold then
        ({ s with
            padPressures := stored
            padOn := s.padOn.set pad.val false pad.isLt },
          [.pad pad pressure none .release])
      else if wasOn = true then
        let peak := s.padPeakSinceAttack.get pad
        ({ s with
            padPressures := stored
            padPeakSinceAttack :=
              if peak < pressure then
                s.padPeakSinceAttack.set pad.val pressure pad.isLt
              else s.padPeakSinceAttack },
          if opts.padPressureStep.toNat ≤
              absDiff pressure (s.padPressures.get pad)
          then [.pad pad pressure none .pressure] else [])
      else
        ({ s with padPressures := stored }, [])

def emitPads (opts : OpenOptions) : Transducer DiffState PadsReport Event :=
  Transducer.framed PadsReport.samples (emitPadSample opts)

/-!
## The task
-/

def diffFrame (opts : OpenOptions) : Transducer DiffState (List UInt8) Event :=
  fun s raw =>
    match parse raw with
    | .error _ => (s, [])
    | .ok (.controls c) => emitControls s c
    | .ok (.pads p) => emitPads opts s p

/-!
## Kinds of controls events
-/

theorem mem_buttonEvents_iff {prev c : ControlsReport} {e : Event} :
    e ∈ buttonEvents prev c <-> exists i : Fin 64,
      c.buttons.getLsbD i.val ≠ prev.buttons.getLsbD i.val ∧
        e = .button i (c.buttons.getLsbD i.val) := by
  unfold buttonEvents
  rw [List.mem_map]
  constructor
  · intro h
    rcases h with ⟨⟨i, pressed⟩, hmem, he⟩
    have hdiff := ControlsReport.mem_buttonsDiff_iff.mp hmem
    exact ⟨i, hdiff.left, by rw [← hdiff.right]; exact he.symm⟩
  · intro h
    rcases h with ⟨i, hne, he⟩
    exact ⟨(i, c.buttons.getLsbD i.val),
      ControlsReport.mem_buttonsDiff_iff.mpr ⟨hne, rfl⟩, he.symm⟩

theorem mem_macroEvents_iff {prev c : ControlsReport} {e : Event} :
    e ∈ macroEvents prev c <-> exists i : Fin macroEncoderCount,
      ControlsReport.encoderDelta (prev.macros.get i) (c.macros.get i) ≠ 0 ∧
        e = .macroEncoder i
          (ControlsReport.encoderDelta (prev.macros.get i) (c.macros.get i))
          (c.macros.get i) := by
  unfold macroEvents
  rw [List.mem_filterMap]
  constructor
  · intro h
    rcases h with ⟨i, _, hi⟩
    by_cases hdelta :
        ControlsReport.encoderDelta (prev.macros.get i) (c.macros.get i) ≠ 0
    · rw [if_pos hdelta] at hi
      exact ⟨i, hdelta, (Option.some.inj hi).symm⟩
    · rw [if_neg hdelta] at hi
      cases hi
  · intro h
    rcases h with ⟨i, hdelta, he⟩
    refine ⟨i, List.mem_finRange i, ?_⟩
    rw [if_pos hdelta, he]

theorem mem_masterEvents_iff {prev c : ControlsReport} {e : Event} :
    e ∈ masterEvents prev c <->
      ControlsReport.encoderDelta prev.master c.master ≠ 0 ∧
        e = .masterEncoder
          (ControlsReport.encoderDelta prev.master c.master) c.master := by
  unfold masterEvents
  by_cases hdelta : ControlsReport.encoderDelta prev.master c.master ≠ 0
  · simp [hdelta]
  · simp [hdelta]

theorem mem_stripEvents_iff {prev c : ControlsReport} {e : Event} :
    e ∈ stripEvents prev c <->
      (exists p pr, c.touchStrip = some (p, pr) ∧ e = .touchStrip p pr) ∨
        (c.touchStrip = none ∧ prev.touchStrip ≠ none ∧
          e = .touchStripReleased) := by
  unfold stripEvents
  cases hc : c.touchStrip with
  | some touch => simp [Prod.ext_iff, and_assoc]
  | none =>
      cases hprev : prev.touchStrip with
      | some touch => simp
      | none => simp

theorem mem_analogEvents_iff {which : AnalogKnob} {was now : UInt16}
    {e : Event} :
    e ∈ analogEvents which was now <-> was ≠ now ∧ e = .analog which now := by
  unfold analogEvents
  by_cases hne : was ≠ now
  · simp [hne]
  · simp [hne]

theorem nonPad_of_mem_controlsEvents {prev c : ControlsReport} {e : Event}
    (h : e ∈ controlsEvents prev c) : e.nonPad? = some e := by
  simp only [controlsEvents, List.mem_append, mem_buttonEvents_iff,
    mem_macroEvents_iff, mem_masterEvents_iff, mem_stripEvents_iff,
    mem_analogEvents_iff] at h
  rcases h with (((((⟨_, _, he⟩ | ⟨_, _, he⟩) | ⟨_, he⟩) |
    ⟨_, _, _, he⟩ | ⟨_, _, he⟩) | ⟨_, he⟩) | ⟨_, he⟩) | ⟨_, he⟩ <;>
  · rw [he]
    rfl

/-!
## Inputs of the task

A frame decodes to the inputs that reach the diff state: nothing, one controls
report, or the samples of a pads report in order.
-/

inductive Input where
  | controls (c : ControlsReport)
  | sample (s : PadSample)
deriving DecidableEq, Repr

def decode (raw : List UInt8) : List Input :=
  match parse raw with
  | .error _ => []
  | .ok (.controls c) => [.controls c]
  | .ok (.pads p) => p.samples.map .sample

def diffInput (opts : OpenOptions) : Transducer DiffState Input Event :=
  fun s input =>
    match input with
    | .controls c => emitControls s c
    | .sample sample => emitPadSample opts s sample

/-- The task processes a frame by consuming its decoded inputs. -/
theorem diffFrame_eq_framed (opts : OpenOptions) :
    diffFrame opts = Transducer.framed decode (diffInput opts) := by
  funext s raw
  unfold diffFrame Transducer.framed decode
  cases parse raw with
  | error e => rfl
  | ok report =>
      cases report with
      | controls c =>
          simp only [Transducer.final_cons, Transducer.final_nil,
            Transducer.trace_cons, Transducer.trace_nil, List.append_nil]
          rfl
      | pads p =>
          simp only [Transducer.final_map, Transducer.trace_map]
          rfl

/-- The samples that the entries of a pads body stand for. -/
def samplesIn (es : List PadEntry) : List Input :=
  (es.filterMap PadEntry.sample?).map .sample

theorem samplesIn_append (es es' : List PadEntry) :
    samplesIn (es ++ es') = samplesIn es ++ samplesIn es' := by
  unfold samplesIn
  rw [List.filterMap_append, List.map_append]

theorem decode_pads {body : List UInt8}
    (h : forall e, e ∈ chunksExact body -> e.pad.toNat < padCount) :
    decode (reportInPads :: body) = samplesIn (chunksExact body) := by
  have hparse : parse (reportInPads :: body) = .ok (.pads
      { samples := (chunksExact body).filterMap PadEntry.sample? }) :=
    parse_eq_pads_iff.mpr ⟨body, rfl, parseEntries_eq_ok_iff.mpr ⟨h, rfl⟩⟩
  rw [decode, hparse]
  rfl

/-- A frame that parses as pads is a pads body whose entries name pads. -/
theorem entries_of_parse {raw : List UInt8} {p : PadsReport}
    (h : parse raw = .ok (.pads p)) :
    exists body, raw = reportInPads :: body ∧
      forall e, e ∈ chunksExact body -> e.pad.toNat < padCount := by
  rcases parse_eq_pads_iff.mp h with ⟨body, hraw, hok⟩
  exact ⟨body, hraw, (parseEntries_eq_ok_iff.mp hok).left⟩

end Device
end OpenMk3
