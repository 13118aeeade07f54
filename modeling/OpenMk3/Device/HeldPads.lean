import OpenMk3.Device.Isolation
import OpenMk3.Device.PadProtocol
import OpenMk3.Library.Replay

/-!
# Held pads

A consumer that applies every event knows which pads are held and with which
velocity each of them was struck, although it sees neither the thresholds nor
the pressures between them.
-/

namespace OpenMk3
namespace Device

open Library Proto

/-- The velocity of each pad that is held. -/
abbrev HeldPads := Fin padCount -> Option UInt8

def heldBy (held : Option UInt8) (e : PadEvent) : Option UInt8 :=
  match e.phase with
  | .attack => e.velocity
  | .pressure => held
  | .release => none

/-- What a consumer makes of an event. -/
def applyPress (held : HeldPads) : Event -> HeldPads
  | .pad p pressure velocity phase =>
      fun q => if p = q then heldBy (held q) { pressure, velocity, phase } else held q
  | _ => held

def heldPads (events : List Event) : HeldPads :=
  replay applyPress (fun _ => none) events

theorem applyPress_of_padEvent {p : Fin padCount} {e : Event} {pe : PadEvent}
    (h : e.padEvent? p = some pe) (held : HeldPads) :
    applyPress held e p = heldBy (held p) pe := by
  rw [Event.padEvent?_eq_some_iff.mp h]
  exact if_pos rfl

theorem applyPress_of_other {p : Fin padCount} {e : Event}
    (h : e.padEvent? p = none) (held : HeldPads) : applyPress held e p = held p := by
  cases e with
  | pad q pressure velocity phase =>
      by_cases hq : q = p
      · rw [Event.padEvent?, if_pos hq] at h
        cases h
      · exact if_neg hq
  | _ => rfl

/-- What is held of a pad depends on the events of that pad alone. -/
theorem replay_applyPress (held : HeldPads) (events : List Event)
    (p : Fin padCount) :
    replay applyPress held events p =
      replay heldBy (held p) (padEvents p events) := by
  induction events generalizing held with
  | nil => rfl
  | cons e rest ih =>
      show replay applyPress (applyPress held e) rest p = _
      rw [ih]
      unfold padEvents
      cases hpe : e.padEvent? p with
      | none =>
          rw [applyPress_of_other hpe, List.filterMap_cons_none hpe]
      | some pe =>
          rw [applyPress_of_padEvent hpe, List.filterMap_cons_some hpe]
          rfl

/-!
## The pressure that struck a pad
-/

section Filtered

variable {opts : OpenOptions} (hraw : opts.rawPadStream = false)

/-- The pressure of the open press of a pad. -/
def struckBy (opts : OpenOptions) (samples : List UInt16) : Option UInt16 :=
  holder (rises opts) (falls opts) samples

include hraw in
theorem on_final_eq_latched (samples : List UInt16) :
    (Transducer.final (padStep opts) PadState.default samples).on =
      latched (rises opts) (falls opts) samples :=
  Transducer.observe_final PadState.on (latch (rises opts) (falls opts))
    (padStep_on hraw) PadState.default samples

include hraw in
/-- One sample moves what is held as it moves the pressure of the press. -/
theorem heldBy_step {s : PadState} {struck : Option UInt16} (q : UInt16)
    (hon : struck.isSome = s.on) :
    replay heldBy (struck.map pressureToVelocity) (padStep opts s q).2 =
      (holds (rises opts) (falls opts) struck q).map pressureToVelocity := by
  rcases padStep_cases hraw s q with ⟨hs, hq, hstep⟩ | ⟨hs, hq, hstep⟩ |
    ⟨hs, hq, hstep⟩ | ⟨hs, hq, hstep⟩
  · have hnone : struck = none := by simpa [hs] using hon
    rw [hstep, hnone]
    simp [replay, heldBy, holds, rises, hq]
  · have hnone : struck = none := by simpa [hs] using hon
    have hrises : rises opts q = false :=
      decide_eq_false (UInt16.not_le.mpr hq)
    rw [hstep, hnone]
    simp [replay, holds, hrises]
  · rcases Option.isSome_iff_exists.mp (hon.trans hs) with ⟨r, hr⟩
    rw [hstep, hr]
    simp [replay, heldBy, holds, falls, hq]
  · rcases Option.isSome_iff_exists.mp (hon.trans hs) with ⟨r, hr⟩
    have hfalls : falls opts q = false :=
      decide_eq_false (UInt16.not_le.mpr hq)
    rw [hstep, hr]
    by_cases hmoved : opts.padPressureStep.toNat ≤ absDiff q s.pressure
    · simp [replay, heldBy, holds, hfalls, hmoved]
    · simp [replay, holds, hfalls, hmoved]

include hraw in
theorem heldBy_run (samples : List UInt16) :
    replay heldBy none (Transducer.trace (padStep opts) PadState.default samples) =
      (struckBy opts samples).map pressureToVelocity := by
  unfold struckBy
  induction samples using List.reverseRecOn with
  | nil => rfl
  | append_singleton samples q ih =>
      have hon := (isSome_holder (rises opts) (falls opts) samples).trans
        (on_final_eq_latched hraw samples).symm
      rw [Transducer.trace_snoc, replay_append, ih, holder_snoc]
      exact heldBy_step hraw q hon

include hraw in
theorem heldPads_eventsOf (frames : List (List UInt8)) (p : Fin padCount) :
    heldPads (eventsOf opts frames) p =
      (struckBy opts (samplesOf p frames)).map pressureToVelocity := by
  unfold heldPads
  rw [replay_applyPress, eventsOf, padEvents_trace, padView_default]
  exact heldBy_run hraw (samplesOf p frames)

include hraw in
/-- A consumer of all events holds a pad exactly when a pressure struck it at
rest and none since let it go, with the velocity of that pressure. -/
theorem heldPads_eq_some_iff {frames : List (List UInt8)} {p : Fin padCount}
    {v : UInt8} :
    heldPads (eventsOf opts frames) p = some v <->
      exists before q after, samplesOf p frames = before ++ q :: after ∧
        latched (rises opts) (falls opts) before = false ∧
        opts.padOnThreshold ≤ q ∧
        (forall r, r ∈ after -> opts.padOffThreshold < r) ∧
        pressureToVelocity q = v := by
  have hfalls : forall r, falls opts r = false <-> opts.padOffThreshold < r :=
    fun r => decide_eq_false_iff_not.trans UInt16.not_le
  rw [heldPads_eventsOf hraw, Option.map_eq_some_iff]
  constructor
  · rintro ⟨q, hq, hv⟩
    rcases holder_eq_some_iff.mp hq with
      ⟨before, after, hsamples, hbefore, hrises, hafter⟩
    exact ⟨before, q, after, hsamples, hbefore, of_decide_eq_true hrises,
      fun r hr => (hfalls r).mp (hafter r hr), hv⟩
  · rintro ⟨before, q, after, hsamples, hbefore, hrises, hafter, hv⟩
    exact ⟨q, holder_eq_some_iff.mpr ⟨before, after, hsamples, hbefore,
      decide_eq_true hrises, fun r hr => (hfalls r).mpr (hafter r hr)⟩, hv⟩

end Filtered

end Device
end OpenMk3
