import OpenMk3.Device.PadMachine

/-!
# Isolation of the sources

One diff state serves the controls and the sixteen pads.  The events of each
source depend on the inputs of that source only: they are the events of the
task when everything else is removed from the frames.
-/

namespace OpenMk3
namespace Device

open Library Proto

/-!
## Controls
-/

/-- The part of the task that the controls reports see. -/
def controlsStep :
    Transducer (Option ControlsReport) ControlsReport Event :=
  fun prev c => (some c, controlsEvents (prev.getD ControlsReport.default) c)

def controlsSelect : Input -> Option ControlsReport
  | .controls c => some c
  | .sample _ => none

theorem emitPadSample_events {opts : OpenOptions} {s : DiffState}
    {sample : PadSample} {e : Event}
    (h : e ∈ (emitPadSample opts s sample).2) :
    exists pe : PadEvent, e = pe.onPad sample.pad := by
  have hown : forall pressure velocity phase,
      e ∈ [Event.pad sample.pad pressure velocity phase] ->
        exists pe : PadEvent, e = pe.onPad sample.pad := by
    intro pressure velocity phase he
    exact ⟨⟨pressure, velocity, phase⟩, List.mem_singleton.mp he⟩
  simp only [emitPadSample] at h
  split_ifs at h <;>
    first
      | exact hown _ _ _ h
      | cases h

theorem emitPadSample_controls (opts : OpenOptions) (s : DiffState)
    (sample : PadSample) :
    (emitPadSample opts s sample).1.controls = s.controls := by
  simp only [emitPadSample]
  split_ifs <;> rfl

/-- The diff task as seen by the controls reports. -/
def controlsProjection (opts : OpenOptions) :
    Transducer.Projection (diffInput opts) controlsStep where
  view := DiffState.controls
  select := controlsSelect
  keep := Event.nonPad?
  step_selected := by
    intro s i c hsel
    cases i with
    | controls c' =>
        cases hsel
        have hkeep : (controlsEvents (s.controls.getD ControlsReport.default)
            c).filterMap Event.nonPad? =
            controlsEvents (s.controls.getD ControlsReport.default) c := by
          rw [List.filterMap_congr fun _ => nonPad_of_mem_controlsEvents,
            List.filterMap_some]
        exact Prod.ext rfl hkeep.symm
    | sample sample => cases hsel
  step_skipped := by
    intro s i hsel
    cases i with
    | controls c => cases hsel
    | sample sample =>
        refine ⟨emitPadSample_controls opts s sample, ?_⟩
        apply List.filterMap_eq_nil_iff.mpr
        intro e he
        rcases emitPadSample_events he with ⟨pe, heq⟩
        rw [heq]
        rfl

/-!
## Removing the other sources
-/

def samplesOf (p : Fin padCount) (frames : List (List UInt8)) : List UInt16 :=
  (frames.flatMap decode).filterMap (padSelect p)

def controlsOf (frames : List (List UInt8)) : List ControlsReport :=
  (frames.flatMap decode).filterMap controlsSelect

def inputOf (p : Fin padCount) (i : Input) : Bool := (padSelect p i).isSome

def entryOf (p : Fin padCount) (e : PadEntry) : Bool := e.pad.toNat == p.val

/-- A pads frame without the entries of the other pads; no other frame. -/
def onlyPad (p : Fin padCount) (raw : List UInt8) : Option (List UInt8) :=
  match parse raw with
  | .ok (.pads _) =>
      let entries := (chunksExact raw.tail).filter (entryOf p)
      some (reportInPads :: entries.flatMap PadEntry.toBytes)
  | _ => none

def isControls (raw : List UInt8) : Bool :=
  match parse raw with
  | .ok (.controls _) => true
  | _ => false

theorem decode_of_isControls {raw : List UInt8} (h : isControls raw = true) :
    exists c, decode raw = [.controls c] := by
  unfold isControls at h
  split at h
  · rename_i c hparse
    exact ⟨c, by rw [decode, hparse]⟩
  · cases h

theorem controlsSelect_of_not_isControls {raw : List UInt8}
    (h : isControls raw ≠ true) :
    (decode raw).filterMap controlsSelect = [] := by
  unfold isControls at h
  unfold decode
  split at h
  · exact absurd rfl h
  · rename_i hnot
    cases hparse : parse raw with
    | error e => rfl
    | ok report =>
        cases report with
        | controls c => exact absurd hparse (hnot c)
        | pads p =>
            simp only [List.filterMap_map]
            exact List.filterMap_eq_nil_iff.mpr fun _ _ => rfl

theorem controlsOf_filter (frames : List (List UInt8)) :
    controlsOf (frames.filter isControls) = controlsOf frames := by
  unfold controlsOf
  induction frames with
  | nil => rfl
  | cons raw rest ih =>
      by_cases hraw : isControls raw = true
      · rw [List.filter_cons_of_pos hraw, List.flatMap_cons,
          List.flatMap_cons, List.filterMap_append, List.filterMap_append, ih]
      · rw [List.filter_cons_of_neg hraw, List.flatMap_cons,
          List.filterMap_append, controlsSelect_of_not_isControls hraw, ih,
          List.nil_append]

theorem samplesIn_filter (p : Fin padCount) (es : List PadEntry) :
    samplesIn (es.filter (entryOf p)) =
      (samplesIn es).filter (inputOf p) := by
  unfold samplesIn
  induction es with
  | nil => rfl
  | cons e rest ih =>
      cases hsample : e.sample? with
      | none =>
          rw [List.filterMap_cons_none hsample, ← ih]
          by_cases hpad : entryOf p e = true
          · rw [List.filter_cons_of_pos hpad,
              List.filterMap_cons_none hsample]
          · rw [List.filter_cons_of_neg hpad]
      | some sample =>
          have heq := (PadEntry.pad_of_sample? hsample).left
          rw [List.filterMap_cons_some hsample, List.map_cons]
          by_cases hpad : sample.pad = p
          · have hpos : entryOf p e = true := by
              rw [entryOf, heq, hpad, beq_self_eq_true]
            have hsel : inputOf p (.sample sample) = true := by
              rw [inputOf, padSelect, if_pos hpad]
              rfl
            rw [List.filter_cons_of_pos hpos,
              List.filterMap_cons_some hsample, List.map_cons,
              List.filter_cons_of_pos hsel, ih]
          · have hneg : ¬ entryOf p e = true := by
              rw [entryOf, heq, beq_iff_eq]
              exact fun hval => hpad (Fin.ext hval)
            have hsel : ¬ inputOf p (.sample sample) = true := by
              rw [inputOf, padSelect, if_neg hpad]
              exact Bool.false_ne_true
            rw [List.filter_cons_of_neg hneg, List.filter_cons_of_neg hsel, ih]

/-- A purged frame decodes to the samples of its pad. -/
theorem decode_onlyPad {p : Fin padCount} {raw purged : List UInt8}
    (h : onlyPad p raw = some purged) :
    decode purged = (decode raw).filter (inputOf p) := by
  unfold onlyPad at h
  split at h
  · rename_i report hparse
    cases h
    rcases entries_of_parse hparse with ⟨body, hraw, hvalid⟩
    rw [hraw, List.tail_cons, decode_pads hvalid, ← samplesIn_filter,
      decode_pads, chunksExact_flatMap_toBytes]
    intro e he
    rw [chunksExact_flatMap_toBytes] at he
    exact hvalid e (List.mem_of_mem_filter he)
  · cases h

theorem padSelect_of_onlyPad_none {p : Fin padCount} {raw : List UInt8}
    (h : onlyPad p raw = none) :
    (decode raw).filterMap (padSelect p) = [] := by
  unfold onlyPad at h
  unfold decode
  split at h
  · cases h
  · rename_i hnot
    cases hparse : parse raw with
    | error e => rfl
    | ok report =>
        cases report with
        | controls c => rfl
        | pads pads => exact absurd hparse (hnot pads)

theorem filterMap_padSelect_filter (p : Fin padCount) (is : List Input) :
    (is.filter (inputOf p)).filterMap (padSelect p) =
      is.filterMap (padSelect p) := by
  unfold inputOf
  rw [List.filterMap_filter]
  apply List.filterMap_congr
  intro i _
  cases padSelect p i <;> rfl

theorem samplesOf_onlyPad (p : Fin padCount) (frames : List (List UInt8)) :
    samplesOf p (frames.filterMap (onlyPad p)) = samplesOf p frames := by
  unfold samplesOf
  induction frames with
  | nil => rfl
  | cons raw rest ih =>
      cases hraw : onlyPad p raw with
      | none =>
          rw [List.filterMap_cons_none hraw, ih, List.flatMap_cons,
            List.filterMap_append, padSelect_of_onlyPad_none hraw,
            List.nil_append]
      | some purged =>
          rw [List.filterMap_cons_some hraw, List.flatMap_cons,
            List.flatMap_cons, List.filterMap_append, List.filterMap_append,
            decode_onlyPad hraw, filterMap_padSelect_filter, ih]

theorem padSelect_isSome_of_mem {p : Fin padCount}
    {frames : List (List UInt8)} {i : Input}
    (h : i ∈ (frames.filterMap (onlyPad p)).flatMap decode) :
    exists q, i = .sample { pad := p, pressure := q } := by
  rcases List.mem_flatMap.mp h with ⟨purged, hmem, hi⟩
  rcases List.mem_filterMap.mp hmem with ⟨raw, _, hraw⟩
  rw [decode_onlyPad hraw] at hi
  have hsome := List.of_mem_filter hi
  cases i with
  | controls c => cases hsome
  | sample sample =>
      by_cases hpad : sample.pad = p
      · subst hpad
        exact ⟨sample.pressure, rfl⟩
      · rw [inputOf, padSelect, if_neg hpad] at hsome
        cases hsome

/-!
## Isolation
-/

def eventsOf (opts : OpenOptions) (frames : List (List UInt8)) : List Event :=
  Transducer.trace (diffFrame opts) DiffState.default frames

theorem eventsOf_eq (opts : OpenOptions) (frames : List (List UInt8)) :
    eventsOf opts frames =
      Transducer.trace (diffInput opts) DiffState.default
        (frames.flatMap decode) := by
  rw [eventsOf, diffFrame_eq_framed, Transducer.trace_framed]

theorem eventsOf_onlyPad (opts : OpenOptions) (frames : List (List UInt8))
    (p : Fin padCount) :
    eventsOf opts (frames.filterMap (onlyPad p)) =
      (padEvents p (eventsOf opts frames)).map (PadEvent.onPad p) := by
  rw [eventsOf_eq, eventsOf_eq]
  apply (padProjection opts p).trace_purged
  · exact samplesOf_onlyPad p frames
  · intro s i e hi he
    rcases padSelect_isSome_of_mem hi with ⟨q, hsample⟩
    subst hsample
    rcases emitPadSample_events he with ⟨pe, heq⟩
    subst heq
    show (Event.padEvent? p (pe.onPad p)).map (PadEvent.onPad p) = _
    rw [Event.padEvent?_onPad]
    rfl

theorem eventsOf_isControls (opts : OpenOptions)
    (frames : List (List UInt8)) :
    eventsOf opts (frames.filter isControls) =
      (eventsOf opts frames).filterMap Event.nonPad? := by
  rw [eventsOf_eq, eventsOf_eq]
  have hpurged := (controlsProjection opts).trace_purged id
    DiffState.default (controlsOf_filter frames)
  rw [List.map_id] at hpurged
  apply hpurged
  intro s i e hi he
  rcases List.mem_flatMap.mp hi with ⟨raw, hmem, hdecode⟩
  rcases decode_of_isControls (List.of_mem_filter hmem) with ⟨c, hraw⟩
  rw [hraw] at hdecode
  rw [List.mem_singleton.mp hdecode] at he
  show (Event.nonPad? e).map id = some e
  rw [nonPad_of_mem_controlsEvents he]
  rfl

/--
The events of a pad are those of the task run on its own samples alone, and the
other events are those of the controls frames alone; so frames that agree on
the inputs of a source agree on its events.
-/
theorem sources_isolated (opts : OpenOptions) (frames : List (List UInt8)) :
    (forall p, eventsOf opts (frames.filterMap (onlyPad p)) =
      (padEvents p (eventsOf opts frames)).map (PadEvent.onPad p)) ∧
    eventsOf opts (frames.filter isControls) =
      (eventsOf opts frames).filterMap Event.nonPad? ∧
    forall frames' : List (List UInt8),
      (forall p, samplesOf p frames = samplesOf p frames' ->
        padEvents p (eventsOf opts frames) =
          padEvents p (eventsOf opts frames')) ∧
      (controlsOf frames = controlsOf frames' ->
        (eventsOf opts frames).filterMap Event.nonPad? =
          (eventsOf opts frames').filterMap Event.nonPad?) := by
  refine ⟨eventsOf_onlyPad opts frames, eventsOf_isControls opts frames, ?_⟩
  intro frames'
  rw [eventsOf_eq, eventsOf_eq]
  constructor
  · intro p h
    exact (padProjection opts p).trace_keep_congr DiffState.default h
  · intro h
    exact (controlsProjection opts).trace_keep_congr DiffState.default h

end Device
end OpenMk3
