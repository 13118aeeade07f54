import Mathlib.Data.Int.ModEq
import OpenMk3.Device.Diff
import OpenMk3.Library.Replay

/-!
# Controls events

What a consumer can rebuild from the events of controls reports.  Replaying
every event gives back the latest report, and the encoder deltas of a run add
up to the rotation of each encoder since the default report.
-/

namespace OpenMk3
namespace Device

open Library Proto

/-- A raw frame that parses as a controls report. -/
structure ControlsFrame where
  raw : List UInt8
  report : ControlsReport
  parsed : parse raw = .ok (.controls report)

/-!
## Encoders
-/

/-- The nine endless encoders. -/
inductive Encoder where
  | knob (index : Fin macroEncoderCount)
  | master
deriving DecidableEq, Repr

def Encoder.position : Encoder -> ControlsReport -> UInt16
  | knob i, c => c.macros.get i
  | master, c => c.master

/-- The delta and absolute position that an event reports for an encoder. -/
def Event.rotation? : Encoder -> Event -> Option (Int × UInt16)
  | .knob i, .macroEncoder j delta absolute =>
      if j = i then some (delta, absolute) else none
  | .master, .masterEncoder delta absolute => some (delta, absolute)
  | _, _ => none

def rotations (enc : Encoder) (events : List Event) : List (Int × UInt16) :=
  events.filterMap (Event.rotation? enc)

theorem encoderDelta_modEq (prev now : UInt16) :
    ControlsReport.encoderDelta prev now ≡
      (now.toNat : Int) - prev.toNat [ZMOD 1024] := by
  unfold ControlsReport.encoderDelta Int.ModEq
  simp only
  split <;> omega

theorem encoderDelta_bounds (prev now : UInt16) :
    -511 ≤ ControlsReport.encoderDelta prev now ∧
      ControlsReport.encoderDelta prev now ≤ 512 := by
  unfold ControlsReport.encoderDelta
  simp only
  split <;> omega

theorem add_encoderDelta (prev : UInt16) {now : UInt16} (h : TenBit now) :
    (now.toNat : Int) =
      (prev.toNat + ControlsReport.encoderDelta prev now) % 1024 := by
  unfold TenBit at h
  unfold ControlsReport.encoderDelta
  simp only
  split <;> omega

/-- Between 10-bit positions the delta is zero only at rest. -/
theorem encoderDelta_eq_zero_iff {prev now : UInt16} (hprev : TenBit prev)
    (hnow : TenBit now) :
    ControlsReport.encoderDelta prev now = 0 <-> now = prev := by
  unfold TenBit at hprev hnow
  unfold ControlsReport.encoderDelta
  rw [← UInt16.toNat_inj]
  simp only
  split <;> omega

theorem Encoder.tenBit_position (enc : Encoder) {c : ControlsReport}
    (h : c.InRange) : TenBit (enc.position c) := by
  cases enc with
  | knob i => exact h.macros i
  | master => exact h.master

/-!
## Rotations of one report
-/

private theorem filterMap_at {index value : Type} [DecidableEq index]
    (i : index) (g : index -> Option value) {l : List index} (hl : l.Nodup)
    (hi : i ∈ l) :
    l.filterMap (fun j => if j = i then g j else none) = (g i).toList := by
  rcases List.append_of_mem hi with ⟨front, back, hsplit⟩
  subst hsplit
  have hother : forall j, j ∈ front ++ back -> j ≠ i := by
    intro j hj heq
    subst heq
    exact (List.nodup_middle.mp hl).notMem hj
  have hnone : forall part : List index, (forall j, j ∈ part -> j ≠ i) ->
      part.filterMap (fun j => if j = i then g j else none) = [] := by
    intro part hpart
    apply List.filterMap_eq_nil_iff.mpr
    intro j hj
    exact if_neg (hpart j hj)
  rw [List.filterMap_append, hnone front fun j hj =>
      hother j (List.mem_append_left back hj),
    List.filterMap_cons, hnone back fun j hj =>
      hother j (List.mem_append_right front hj), if_pos rfl]
  cases g i <;> rfl

theorem rotations_append (enc : Encoder) (es es' : List Event) :
    rotations enc (es ++ es') = rotations enc es ++ rotations enc es' :=
  List.filterMap_append

private theorem rotations_eq_nil {enc : Encoder} {events : List Event}
    (h : forall e, e ∈ events -> e.rotation? enc = none) :
    rotations enc events = [] :=
  List.filterMap_eq_nil_iff.mpr h

def rotation (enc : Encoder) (prev c : ControlsReport) :
    List (Int × UInt16) :=
  if ControlsReport.encoderDelta (enc.position prev) (enc.position c) ≠ 0 then
    [(ControlsReport.encoderDelta (enc.position prev) (enc.position c),
      enc.position c)]
  else []

theorem rotation_of_turned (enc : Encoder) {prev c : ControlsReport}
    (h : ControlsReport.encoderDelta (enc.position prev) (enc.position c) ≠ 0) :
    rotation enc prev c =
      [(ControlsReport.encoderDelta (enc.position prev) (enc.position c),
        enc.position c)] :=
  if_pos h

theorem rotation_of_still (enc : Encoder) {prev c : ControlsReport}
    (h : ControlsReport.encoderDelta (enc.position prev) (enc.position c) = 0) :
    rotation enc prev c = [] :=
  if_neg (Classical.not_not.mpr h)

private theorem toList_head?_rotation (enc : Encoder)
    (prev c : ControlsReport) :
    (rotation enc prev c).head?.toList = rotation enc prev c := by
  unfold rotation
  split <;> rfl

theorem rotations_macroEvents (enc : Encoder) (prev c : ControlsReport) :
    rotations enc (macroEvents prev c) =
      match enc with
      | .knob _ => rotation enc prev c
      | .master => [] := by
  cases enc with
  | knob i =>
      unfold rotations macroEvents
      rw [List.filterMap_filterMap]
      have hselect : (fun j : Fin macroEncoderCount =>
          (if ControlsReport.encoderDelta (prev.macros.get j) (c.macros.get j) ≠ 0 then
            some (Event.macroEncoder j
              (ControlsReport.encoderDelta (prev.macros.get j) (c.macros.get j))
              (c.macros.get j))
          else none).bind (Event.rotation? (.knob i))) =
          fun j => if j = i then (rotation (.knob j) prev c).head? else none := by
        funext j
        by_cases hdelta :
            ControlsReport.encoderDelta (prev.macros.get j) (c.macros.get j) ≠ 0
        · rw [if_pos hdelta, rotation_of_turned (.knob j) hdelta]
          rfl
        · rw [if_neg hdelta,
            rotation_of_still (.knob j) (Classical.not_not.mp hdelta)]
          exact (ite_self none).symm
      rw [hselect, filterMap_at i _ (List.nodup_finRange _)
        (List.mem_finRange i)]
      exact toList_head?_rotation (.knob i) prev c
  | master =>
      apply rotations_eq_nil
      intro e he
      rcases mem_macroEvents_iff.mp he with ⟨i, _, heq⟩
      rw [heq]
      rfl

theorem rotations_masterEvents (enc : Encoder) (prev c : ControlsReport) :
    rotations enc (masterEvents prev c) =
      match enc with
      | .knob _ => []
      | .master => rotation enc prev c := by
  cases enc with
  | knob i =>
      apply rotations_eq_nil
      intro e he
      rw [(mem_masterEvents_iff.mp he).right]
      rfl
  | master =>
      unfold masterEvents
      by_cases hdelta : ControlsReport.encoderDelta prev.master c.master ≠ 0
      · rw [if_pos hdelta, rotation_of_turned .master hdelta]
        rfl
      · rw [if_neg hdelta,
          rotation_of_still .master (Classical.not_not.mp hdelta)]
        rfl

/-- A controls report rotates an encoder by its difference, or not at all. -/
theorem rotations_controlsEvents (enc : Encoder) (prev c : ControlsReport) :
    rotations enc (controlsEvents prev c) = rotation enc prev c := by
  have hbuttons : rotations enc (buttonEvents prev c) = [] := by
    apply rotations_eq_nil
    intro e he
    rcases mem_buttonEvents_iff.mp he with ⟨i, _, heq⟩
    rw [heq]
    cases enc <;> rfl
  have hstrip : rotations enc (stripEvents prev c) = [] := by
    apply rotations_eq_nil
    intro e he
    rcases mem_stripEvents_iff.mp he with ⟨p, pr, _, heq⟩ | ⟨_, _, heq⟩
    · rw [heq]
      cases enc <;> rfl
    · rw [heq]
      cases enc <;> rfl
  have hanalog : forall which was now,
      rotations enc (analogEvents which was now) = [] := by
    intro which was now
    apply rotations_eq_nil
    intro e he
    rw [(mem_analogEvents_iff.mp he).right]
    cases enc <;> rfl
  simp only [controlsEvents, rotations_append, hbuttons, hstrip, hanalog,
    rotations_macroEvents, rotations_masterEvents, List.append_nil,
    List.nil_append]
  cases enc <;> simp

/-!
## The consumer's mirror
-/

def setBit (mask : BitVec 64) (bit : Fin 64) (pressed : Bool) : BitVec 64 :=
  if pressed then mask ||| BitVec.twoPow 64 bit.val
  else mask &&& ~~~(BitVec.twoPow 64 bit.val)

theorem getLsbD_setBit (mask : BitVec 64) (bit : Fin 64) (pressed : Bool)
    {j : Nat} (hj : j < 64) :
    (setBit mask bit pressed).getLsbD j =
      if j = bit.val then pressed else mask.getLsbD j := by
  unfold setBit
  cases pressed with
  | true =>
      by_cases heq : j = bit.val
      · simp [heq]
      · simp [heq, Ne.symm heq]
  | false =>
      by_cases heq : j = bit.val
      · simp [heq]
      · simp [heq, hj]

def AnalogKnob.value : AnalogKnob -> ControlsReport -> UInt16
  | micGain, c => c.micGain
  | headphones, c => c.headphones
  | masterVolume, c => c.masterVol

/-- Apply one event to the consumer's copy of the controls. -/
def applyEvent (m : ControlsReport) : Event -> ControlsReport
  | .button bit pressed => { m with buttons := setBit m.buttons bit pressed }
  | .macroEncoder i _ absolute =>
      { m with macros := m.macros.set i.val absolute i.isLt }
  | .masterEncoder _ absolute => { m with master := absolute }
  | .touchStrip p pr => { m with touchStrip := some (p, pr) }
  | .touchStripReleased => { m with touchStrip := none }
  | .analog .micGain value => { m with micGain := value }
  | .analog .headphones value => { m with headphones := value }
  | .analog .masterVolume value => { m with masterVol := value }
  | .pad _ _ _ _ => m
  | .raw _ => m

/-- An event that carries the values of a report. -/
def Tells (c : ControlsReport) : Event -> Prop
  | .button bit pressed => pressed = c.buttons.getLsbD bit.val
  | .macroEncoder i _ absolute => absolute = c.macros.get i
  | .masterEncoder _ absolute => absolute = c.master
  | .touchStrip p pr => c.touchStrip = some (p, pr)
  | .touchStripReleased => c.touchStrip = none
  | .analog which value => value = which.value c
  | .pad _ _ _ _ => True
  | .raw _ => True

theorem tells_of_mem {prev c : ControlsReport} {e : Event}
    (h : e ∈ controlsEvents prev c) : Tells c e := by
  simp only [controlsEvents, List.mem_append, mem_buttonEvents_iff,
    mem_macroEvents_iff, mem_masterEvents_iff, mem_stripEvents_iff,
    mem_analogEvents_iff] at h
  rcases h with (((((⟨_, _, he⟩ | ⟨_, _, he⟩) | ⟨_, he⟩) |
    ⟨_, _, hstrip, he⟩ | ⟨hstrip, _, he⟩) | ⟨_, he⟩) | ⟨_, he⟩) | ⟨_, he⟩
  · rw [he]
    rfl
  · rw [he]
    rfl
  · rw [he]
    rfl
  · rw [he]
    exact hstrip
  · rw [he]
    exact hstrip
  · rw [he]
    rfl
  · rw [he]
    rfl
  · rw [he]
    rfl

/-- From one mirror to the next, each field is kept or set to that of a report. -/
structure Toward (c m m' : ControlsReport) : Prop where
  buttons : forall j, j < 64 ->
    m'.buttons.getLsbD j = m.buttons.getLsbD j ∨
      m'.buttons.getLsbD j = c.buttons.getLsbD j
  macros : forall i : Fin macroEncoderCount,
    m'.macros.get i = m.macros.get i ∨ m'.macros.get i = c.macros.get i
  master : m'.master = m.master ∨ m'.master = c.master
  touchStrip : m'.touchStrip = m.touchStrip ∨ m'.touchStrip = c.touchStrip
  analog : forall which : AnalogKnob,
    which.value m' = which.value m ∨ which.value m' = which.value c

theorem toward_applyEvent {c : ControlsReport} {e : Event} (h : Tells c e)
    (m : ControlsReport) : Toward c m (applyEvent m e) := by
  cases e with
  | button bit pressed =>
      refine ⟨?_, fun _ => Or.inl rfl, Or.inl rfl, Or.inl rfl,
        fun which => Or.inl (by cases which <;> rfl)⟩
      intro j hj
      rw [applyEvent, getLsbD_setBit m.buttons bit pressed hj]
      by_cases heq : j = bit.val
      · rw [if_pos heq, heq]
        exact Or.inr h
      · exact Or.inl (if_neg heq)
  | macroEncoder i delta absolute =>
      refine ⟨fun _ _ => Or.inl rfl, ?_, Or.inl rfl, Or.inl rfl,
        fun which => Or.inl (by cases which <;> rfl)⟩
      intro j
      by_cases heq : i = j
      · subst heq
        exact Or.inr (by simpa [applyEvent, Tells] using h)
      · exact Or.inl (get_set_of_ne m.macros heq absolute)
  | masterEncoder delta absolute =>
      exact ⟨fun _ _ => Or.inl rfl, fun _ => Or.inl rfl, Or.inr h, Or.inl rfl,
        fun which => Or.inl (by cases which <;> rfl)⟩
  | touchStrip p pr =>
      exact ⟨fun _ _ => Or.inl rfl, fun _ => Or.inl rfl, Or.inl rfl,
        Or.inr h.symm, fun which => Or.inl (by cases which <;> rfl)⟩
  | touchStripReleased =>
      exact ⟨fun _ _ => Or.inl rfl, fun _ => Or.inl rfl, Or.inl rfl,
        Or.inr h.symm, fun which => Or.inl (by cases which <;> rfl)⟩
  | analog knob value =>
      simp only [Tells] at h
      subst h
      cases knob <;>
      · refine ⟨fun _ _ => Or.inl rfl, fun _ => Or.inl rfl, Or.inl rfl,
          Or.inl rfl, ?_⟩
        intro which
        cases which <;> simp [applyEvent, AnalogKnob.value]
  | pad p pressure velocity phase =>
      exact ⟨fun _ _ => Or.inl rfl, fun _ => Or.inl rfl, Or.inl rfl,
        Or.inl rfl, fun _ => Or.inl rfl⟩
  | raw report =>
      exact ⟨fun _ _ => Or.inl rfl, fun _ => Or.inl rfl, Or.inl rfl,
        Or.inl rfl, fun _ => Or.inl rfl⟩

section Replay

variable {prev c : ControlsReport}

theorem replay_buttons :
    (replay applyEvent prev (controlsEvents prev c)).buttons = c.buttons := by
  apply BitVec.eq_of_getLsbD_eq
  intro j hj
  apply observe_replay fun m : ControlsReport => m.buttons.getLsbD j
  · exact fun m e he => (toward_applyEvent (tells_of_mem he) m).buttons j hj
  · by_cases heq : c.buttons.getLsbD j = prev.buttons.getLsbD j
    · exact Or.inl heq.symm
    · refine Or.inr ⟨.button ⟨j, hj⟩ (c.buttons.getLsbD j), ?_, ?_⟩
      · simp only [controlsEvents, List.mem_append]
        have hmem := mem_buttonEvents_iff.mpr ⟨⟨j, hj⟩, heq, rfl⟩
        tauto
      · intro m'
        rw [applyEvent, getLsbD_setBit _ _ _ hj, if_pos rfl]

theorem replay_macros (hprev : prev.InRange) (hc : c.InRange) :
    (replay applyEvent prev (controlsEvents prev c)).macros = c.macros := by
  apply Vector.ext
  intro n hn
  let i : Fin macroEncoderCount := ⟨n, hn⟩
  apply observe_replay fun m : ControlsReport => m.macros.get i
  · exact fun m e he => (toward_applyEvent (tells_of_mem he) m).macros i
  · have hzero := encoderDelta_eq_zero_iff (hprev.macros i) (hc.macros i)
    by_cases heq : c.macros.get i = prev.macros.get i
    · exact Or.inl heq.symm
    · refine Or.inr ⟨.macroEncoder i
        (ControlsReport.encoderDelta (prev.macros.get i) (c.macros.get i))
        (c.macros.get i), ?_, ?_⟩
      · simp only [controlsEvents, List.mem_append]
        have hmem := mem_macroEvents_iff.mpr
          ⟨i, fun h => heq (hzero.mp h), rfl⟩
        tauto
      · intro m'
        exact get_set_self m'.macros i (c.macros.get i)

theorem replay_master (hprev : prev.InRange) (hc : c.InRange) :
    (replay applyEvent prev (controlsEvents prev c)).master = c.master := by
  apply observe_replay ControlsReport.master
  · exact fun m e he => (toward_applyEvent (tells_of_mem he) m).master
  · have hzero := encoderDelta_eq_zero_iff hprev.master hc.master
    by_cases heq : c.master = prev.master
    · exact Or.inl heq.symm
    · refine Or.inr ⟨.masterEncoder
        (ControlsReport.encoderDelta prev.master c.master) c.master, ?_,
        fun _ => rfl⟩
      simp only [controlsEvents, List.mem_append]
      have hmem := mem_masterEvents_iff.mpr ⟨fun h => heq (hzero.mp h), rfl⟩
      tauto

theorem replay_touchStrip :
    (replay applyEvent prev (controlsEvents prev c)).touchStrip =
      c.touchStrip := by
  apply observe_replay ControlsReport.touchStrip
  · exact fun m e he => (toward_applyEvent (tells_of_mem he) m).touchStrip
  · cases hc : c.touchStrip with
    | some touch =>
        refine Or.inr ⟨.touchStrip touch.1 touch.2, ?_, fun _ => rfl⟩
        simp only [controlsEvents, List.mem_append]
        have hmem : Event.touchStrip touch.1 touch.2 ∈ stripEvents prev c :=
          mem_stripEvents_iff.mpr (Or.inl ⟨touch.1, touch.2, hc, rfl⟩)
        tauto
    | none =>
        by_cases hprev : prev.touchStrip = none
        · exact Or.inl hprev
        · refine Or.inr ⟨.touchStripReleased, ?_, fun _ => rfl⟩
          simp only [controlsEvents, List.mem_append]
          have hmem := mem_stripEvents_iff.mpr (Or.inr ⟨hc, hprev, rfl⟩)
          tauto

theorem replay_analog (which : AnalogKnob) :
    which.value (replay applyEvent prev (controlsEvents prev c)) =
      which.value c := by
  apply observe_replay which.value
  · exact fun m e he => (toward_applyEvent (tells_of_mem he) m).analog which
  · by_cases heq : which.value prev = which.value c
    · exact Or.inl heq
    · refine Or.inr ⟨.analog which (which.value c), ?_, ?_⟩
      · simp only [controlsEvents, List.mem_append]
        have hmem : Event.analog which (which.value c) ∈
            analogEvents which (which.value prev) (which.value c) :=
          mem_analogEvents_iff.mpr ⟨heq, rfl⟩
        cases which <;> tauto
      · intro m'
        cases which <;> rfl

theorem replay_controlsEvents (hprev : prev.InRange) (hc : c.InRange) :
    replay applyEvent prev (controlsEvents prev c) = c :=
  ControlsReport.ext replay_buttons (replay_macros hprev hc)
    (replay_master hprev hc) replay_touchStrip (replay_analog .micGain)
    (replay_analog .headphones) (replay_analog .masterVolume)

end Replay

/-!
## Runs over controls frames
-/

/-- The last controls report, or the default one before the first. -/
def DiffState.latest (s : DiffState) : ControlsReport :=
  s.controls.getD ControlsReport.default

/-- The report of the last frame, or the default one before the first. -/
def latest (frames : List ControlsFrame) : ControlsReport :=
  (frames.getLast?.map ControlsFrame.report).getD ControlsReport.default

theorem diffFrame_controls (opts : OpenOptions) (s : DiffState)
    (f : ControlsFrame) : diffFrame opts s f.raw = emitControls s f.report := by
  rw [diffFrame, f.parsed]

theorem diffFrame_events (opts : OpenOptions) (s : DiffState)
    (f : ControlsFrame) :
    (diffFrame opts s f.raw).2 = controlsEvents s.latest f.report := by
  rw [diffFrame_controls]
  rfl

theorem latest_snoc (frames : List ControlsFrame) (f : ControlsFrame) :
    latest (frames ++ [f]) = f.report := by
  rw [latest, List.getLast?_append]
  rfl

def controlsRun (opts : OpenOptions) : Transducer DiffState ControlsFrame Event :=
  fun s f => diffFrame opts s f.raw

theorem latest_final (opts : OpenOptions) (frames : List ControlsFrame) :
    (Transducer.final (diffFrame opts) DiffState.default
      (frames.map ControlsFrame.raw)).latest = latest frames := by
  induction frames using List.reverseRecOn with
  | nil => rfl
  | append_singleton frames f ih =>
      rw [List.map_append, List.map_singleton, Transducer.final_snoc,
        diffFrame_controls, latest_snoc]
      rfl

/-- The consumer's copy after a list of events. -/
def mirror (events : List Event) : ControlsReport :=
  replay applyEvent ControlsReport.default events

theorem inRange_report (f : ControlsFrame) : f.report.InRange :=
  inRange_of_parse f.parsed

theorem mirror_trace (opts : OpenOptions) (frames : List ControlsFrame) :
    mirror (Transducer.trace (diffFrame opts) DiffState.default
      (frames.map ControlsFrame.raw)) = latest frames := by
  have hstep : forall (s : DiffState) (f : ControlsFrame),
      s.latest.InRange -> True ->
        (controlsRun opts s f).1.latest.InRange ∧
          replay applyEvent s.latest (controlsRun opts s f).2 =
            (controlsRun opts s f).1.latest := by
    intro s f hs _
    unfold controlsRun
    rw [diffFrame_controls]
    exact ⟨inRange_report f, replay_controlsEvents hs (inRange_report f)⟩
  have hstart : DiffState.default.latest.InRange := inRange_default
  have hrun := replay_trace (controlsRun opts) DiffState.latest hstep hstart
    frames fun _ _ => trivial
  rw [← latest_final opts, Transducer.trace_map, Transducer.final_map]
  exact hrun.right

theorem controlsEvents_self {c : ControlsReport} (h : c.touchStrip = none) :
    controlsEvents c c = [] := by
  apply List.eq_nil_iff_forall_not_mem.mpr
  intro e he
  simp only [controlsEvents, List.mem_append, mem_buttonEvents_iff,
    mem_macroEvents_iff, mem_masterEvents_iff, mem_stripEvents_iff,
    mem_analogEvents_iff] at he
  have hzero : forall x, ControlsReport.encoderDelta x x = 0 := by
    intro x
    simp [ControlsReport.encoderDelta]
  simp [h, hzero] at he

theorem mem_rotation {enc : Encoder} {prev c : ControlsReport}
    {delta : Int} {absolute : UInt16}
    (h : (delta, absolute) ∈ rotation enc prev c) :
    delta = ControlsReport.encoderDelta (enc.position prev) (enc.position c) ∧
      absolute = enc.position c := by
  unfold rotation at h
  split at h
  · have heq := List.mem_singleton.mp h
    cases heq
    exact ⟨rfl, rfl⟩
  · cases h

/--
A consumer that starts from the default report and applies every event holds
the latest report after any run; each encoder event moves the previous absolute
position by its delta, and repeating an untouched report emits nothing.
-/
theorem mirror_eq_latest (opts : OpenOptions) (frames : List ControlsFrame) :
    mirror (Transducer.trace (diffFrame opts) DiffState.default
        (frames.map ControlsFrame.raw)) = latest frames ∧
      forall f : ControlsFrame,
        let s := Transducer.final (diffFrame opts) DiffState.default
          (frames.map ControlsFrame.raw)
        let events := (diffFrame opts s f.raw).2
        (forall enc delta absolute,
          (delta, absolute) ∈ rotations enc events ->
            (absolute.toNat : Int) =
                ((enc.position (latest frames)).toNat + delta) % 1024 ∧
              -511 ≤ delta ∧ delta ≤ 512) ∧
        (f.report = latest frames -> f.report.touchStrip = none ->
          events = []) := by
  refine ⟨mirror_trace opts frames, ?_⟩
  intro f s events
  have hevents : events = controlsEvents (latest frames) f.report := by
    rw [← latest_final opts]
    exact diffFrame_events opts s f
  rw [hevents]
  constructor
  · intro enc delta absolute hmem
    rw [rotations_controlsEvents] at hmem
    rcases mem_rotation hmem with ⟨hdelta, habs⟩
    subst hdelta habs
    exact ⟨add_encoderDelta _ (enc.tenBit_position (inRange_report f)),
      encoderDelta_bounds _ _⟩
  · intro heq hstrip
    rw [← heq]
    exact controlsEvents_self hstrip

/-!
## Rotation over a run
-/

/-- The sum of the deltas that events report for an encoder. -/
def turned (enc : Encoder) (events : List Event) : Int :=
  ((rotations enc events).map Prod.fst).sum

theorem turned_append (enc : Encoder) (es es' : List Event) :
    turned enc (es ++ es') = turned enc es + turned enc es' := by
  simp [turned, rotations_append]

theorem turned_controlsEvents (enc : Encoder) (prev c : ControlsReport) :
    turned enc (controlsEvents prev c) =
      ControlsReport.encoderDelta (enc.position prev) (enc.position c) := by
  rw [turned, rotations_controlsEvents]
  by_cases hdelta :
      ControlsReport.encoderDelta (enc.position prev) (enc.position c) = 0
  · rw [rotation_of_still enc hdelta, hdelta]
    rfl
  · rw [rotation_of_turned enc hdelta]
    simp

theorem position_default (enc : Encoder) :
    enc.position ControlsReport.default = 0 := by
  cases enc with
  | knob i => exact Vector.getElem_replicate i.isLt
  | master => rfl

/-- The deltas of a run add up to the position since the default report. -/
theorem turned_trace_modEq (opts : OpenOptions) (frames : List ControlsFrame)
    (enc : Encoder) :
    turned enc (Transducer.trace (diffFrame opts) DiffState.default
        (frames.map ControlsFrame.raw)) ≡
      (enc.position (latest frames)).toNat [ZMOD 1024] := by
  induction frames using List.reverseRecOn with
  | nil =>
      show (0 : Int) ≡ (enc.position ControlsReport.default).toNat [ZMOD 1024]
      rw [position_default]
      rfl
  | append_singleton frames f ih =>
      have hstep := encoderDelta_modEq (enc.position (latest frames))
        (enc.position f.report)
      rw [List.map_append, List.map_singleton, Transducer.trace_snoc,
        turned_append, diffFrame_events, latest_final, turned_controlsEvents,
        latest_snoc]
      have hsum := ih.add hstep
      rwa [add_sub_cancel] at hsum

theorem rotations_first_eq_nil_iff (opts : OpenOptions)
    (first : ControlsFrame) (enc : Encoder) :
    rotations enc (diffFrame opts DiffState.default first.raw).2 = [] <->
      enc.position first.report = 0 := by
  have hzero := encoderDelta_eq_zero_iff
    (enc.tenBit_position inRange_default)
    (enc.tenBit_position (inRange_report first))
  rw [position_default] at hzero
  have hlatest : DiffState.default.latest = ControlsReport.default := rfl
  rw [diffFrame_events, hlatest, rotations_controlsEvents, ← hzero, rotation,
    position_default]
  split
  · rename_i hne
    simp [hne]
  · rename_i heq
    simpa using heq

/--
The deltas of a run are the rotation since its first report, which itself
contributes none, exactly when the encoder stands at zero in that report.
-/
theorem turned_since_first_iff (opts : OpenOptions) (first : ControlsFrame)
    (rest : List ControlsFrame) (enc : Encoder) :
    (turned enc (Transducer.trace (diffFrame opts) DiffState.default
          ((first :: rest).map ControlsFrame.raw)) ≡
        ((enc.position (latest (first :: rest))).toNat : Int) -
          (enc.position first.report).toNat [ZMOD 1024] ∧
      rotations enc (diffFrame opts DiffState.default first.raw).2 = []) <->
    enc.position first.report = 0 := by
  rw [rotations_first_eq_nil_iff]
  constructor
  · exact And.right
  · intro hzero
    have hrun := turned_trace_modEq opts (first :: rest) enc
    rw [hzero]
    exact ⟨by simpa using hrun, rfl⟩

def knobAtFive : ControlsFrame :=
  { raw := reportInControls ::
      (List.replicate 8 0 ++ [5, 0] ++ List.replicate 26 0)
    report :=
      { ControlsReport.default with
        macros := ControlsReport.default.macros.set 0 5 }
    parsed := by rfl }

/-- Opening the device with a knob at five reports five ticks of rotation. -/
theorem opening_reports_rotation :
    ¬ (turned (.knob 0)
          (Transducer.trace (diffFrame OpenOptions.default) DiffState.default
            ([knobAtFive].map ControlsFrame.raw)) ≡
        (((Encoder.knob 0).position (latest [knobAtFive])).toNat : Int) -
          ((Encoder.knob 0).position knobAtFive.report).toNat [ZMOD 1024]) ∧
      rotations (.knob 0) (diffFrame OpenOptions.default DiffState.default
        knobAtFive.raw).2 = [(5, 5)] := by
  decide

end Device
end OpenMk3
