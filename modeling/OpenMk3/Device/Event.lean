import OpenMk3.Proto.HidIn

/-!
# Events

The public event model of the device, and the views of an event list that
follow one pad or everything else.
-/

namespace OpenMk3
namespace Device

open Proto

inductive PadPhase where
  | attack
  | pressure
  | release
deriving DecidableEq, Repr

inductive AnalogKnob where
  | micGain
  | headphones
  | masterVolume
deriving DecidableEq, Repr

inductive Event where
  | pad (pad : Fin padCount) (pressure : UInt16) (velocity : Option UInt8)
      (phase : PadPhase)
  | button (bit : Fin 64) (pressed : Bool)
  | macroEncoder (index : Fin macroEncoderCount) (delta : Int)
      (absolute : UInt16)
  | masterEncoder (delta : Int) (absolute : UInt16)
  | touchStrip (position pressure : UInt16)
  | touchStripReleased
  | analog (which : AnalogKnob) (value : UInt16)
  | raw (report : InReport)
deriving DecidableEq, Repr

/-- What a pad event says about its pad. -/
structure PadEvent where
  pressure : UInt16
  velocity : Option UInt8
  phase : PadPhase
deriving DecidableEq, Repr

namespace PadEvent

def onPad (p : Fin padCount) (e : PadEvent) : Event :=
  .pad p e.pressure e.velocity e.phase

end PadEvent

namespace Event

def padEvent? (p : Fin padCount) : Event -> Option PadEvent
  | pad q pressure velocity phase =>
      if q = p then some { pressure, velocity, phase } else none
  | _ => none

def nonPad? : Event -> Option Event
  | pad _ _ _ _ => none
  | e => some e

theorem padEvent?_eq_some_iff {p : Fin padCount} {e : Event} {pe : PadEvent} :
    e.padEvent? p = some pe <-> e = pe.onPad p := by
  cases e with
  | pad q pressure velocity phase =>
      rcases pe with ⟨pressure', velocity', phase'⟩
      by_cases hq : q = p
      · simp [padEvent?, PadEvent.onPad, hq]
      · simp [padEvent?, PadEvent.onPad, hq]
  | _ => simp [padEvent?, PadEvent.onPad]

@[simp] theorem padEvent?_onPad (p : Fin padCount) (e : PadEvent) :
    (e.onPad p).padEvent? p = some e :=
  padEvent?_eq_some_iff.mpr rfl

end Event

def padEvents (p : Fin padCount) (events : List Event) : List PadEvent :=
  events.filterMap (Event.padEvent? p)

theorem mem_padEvents_iff {p : Fin padCount} {events : List Event}
    {e : PadEvent} : e ∈ padEvents p events <-> e.onPad p ∈ events := by
  unfold padEvents
  rw [List.mem_filterMap]
  constructor
  · intro h
    rcases h with ⟨ev, hmem, hev⟩
    rw [← Event.padEvent?_eq_some_iff.mp hev]
    exact hmem
  · intro h
    exact ⟨_, h, Event.padEvent?_onPad p e⟩

theorem padEvent?_of_nonPad {p : Fin padCount} {e : Event}
    (h : e.nonPad? = some e) : e.padEvent? p = none := by
  cases e with
  | pad q pressure velocity phase => cases h
  | _ => rfl

end Device
end OpenMk3
