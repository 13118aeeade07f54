import OpenMk3.Device.Controls
import OpenMk3.Device.Isolation

/-!
# The mirror over any frames

A consumer that applies every event holds the last controls report, whatever
pads reports and unparsable frames stand between the controls frames.
-/

namespace OpenMk3
namespace Device

open Library Proto

/-- The last controls report that the frames hold, or the default one. -/
def latestControls (frames : List (List UInt8)) : ControlsReport :=
  (controlsOf frames).getLast?.getD ControlsReport.default

theorem inRange_of_mem_decode {raw : List UInt8} {c : ControlsReport}
    (h : Input.controls c ∈ decode raw) : c.InRange := by
  unfold decode at h
  cases hparse : parse raw with
  | error e =>
      rw [hparse] at h
      cases h
  | ok report =>
      rw [hparse] at h
      cases report with
      | controls c' =>
          cases List.mem_singleton.mp h
          exact inRange_of_parse hparse
      | pads p =>
          rcases List.mem_map.mp h with ⟨sample, -, heq⟩
          cases heq

theorem replay_onPads (m : ControlsReport) {events : List Event}
    (h : forall e, e ∈ events -> exists p pe, e = PadEvent.onPad p pe) :
    replay applyEvent m events = m := by
  apply observe_replay_of_eq id events ?_ rfl
  intro m' e he
  rcases h e he with ⟨p, pe, rfl⟩
  exact .inl rfl

/-- One input of the task moves the mirror as it moves the last report. -/
theorem mirror_step (opts : OpenOptions) (s : DiffState) (i : Input)
    (hs : s.latest.InRange) (hi : forall c, i = .controls c -> c.InRange) :
    (diffInput opts s i).1.latest.InRange ∧
      replay applyEvent s.latest (diffInput opts s i).2 =
        (diffInput opts s i).1.latest := by
  cases i with
  | controls c =>
      exact ⟨hi c rfl, replay_controlsEvents hs (hi c rfl)⟩
  | sample sample =>
      have hcontrols : (emitPadSample opts s sample).1.latest = s.latest := by
        unfold DiffState.latest
        rw [emitPadSample_controls]
      show (emitPadSample opts s sample).1.latest.InRange ∧
        replay applyEvent s.latest (emitPadSample opts s sample).2 =
          (emitPadSample opts s sample).1.latest
      rw [hcontrols]
      refine ⟨hs, replay_onPads s.latest ?_⟩
      intro e he
      rcases emitPadSample_events he with ⟨pe, heq⟩
      exact ⟨sample.pad, pe, heq⟩

theorem final_controlsStep (prev : Option ControlsReport)
    (reports : List ControlsReport) :
    Transducer.final controlsStep prev reports = reports.getLast?.or prev := by
  induction reports using List.reverseRecOn with
  | nil => rfl
  | append_singleton reports c ih =>
      rw [Transducer.final_snoc, List.getLast?_append]
      rfl

theorem latest_final_frames (opts : OpenOptions) (frames : List (List UInt8)) :
    (Transducer.final (diffInput opts) DiffState.default
      (frames.flatMap decode)).latest = latestControls frames := by
  have hview := (controlsProjection opts).final_view DiffState.default
    (frames.flatMap decode)
  unfold DiffState.latest latestControls controlsOf
  rw [show (Transducer.final (diffInput opts) DiffState.default
      (frames.flatMap decode)).controls = _ from hview, final_controlsStep]
  exact congrArg (Option.getD · ControlsReport.default) Option.or_none

/-- Applying all events of any frames gives the last controls report. -/
theorem mirror_eventsOf (opts : OpenOptions) (frames : List (List UInt8)) :
    mirror (eventsOf opts frames) = latestControls frames := by
  have hstart : DiffState.default.latest.InRange := inRange_default
  have hok : forall i, i ∈ frames.flatMap decode ->
      forall c, i = Input.controls c -> c.InRange := by
    intro i hi c heq
    rcases List.mem_flatMap.mp hi with ⟨raw, -, hmem⟩
    exact inRange_of_mem_decode (heq ▸ hmem)
  have hrun := replay_trace (diffInput opts) DiffState.latest (mirror_step opts)
    hstart (frames.flatMap decode) hok
  rw [eventsOf_eq, ← latest_final_frames opts]
  exact hrun.right

end Device
end OpenMk3
