import OpenMk3.Device.Controls
import OpenMk3.Device.HeldPads
import OpenMk3.Library.Json

/-!
# Events as OSC messages

The address and arguments under which `broadcast_event` sends each event.  A
client reads an event back from its message, so that the messages of a run carry
as much as the events do.
-/

namespace OpenMk3
namespace Daemon

open Library Device Proto

/-- The arguments the daemon sends; the numbers are `i32`s in range. -/
inductive OscType where
  | int (value : Int)
deriving DecidableEq, Repr

structure OscMessage where
  addr : List UInt8
  args : List OscType
deriving DecidableEq, Repr

/-- `Debug` of an analog knob. -/
def knobName : AnalogKnob -> List UInt8
  | .micGain => utf8 "MicGain"
  | .headphones => utf8 "Headphones"
  | .masterVolume => utf8 "MasterVolume"

def phaseName : PadPhase -> List UInt8
  | .attack => utf8 "down"
  | .pressure => utf8 "pressure"
  | .release => utf8 "up"

def OscType.ofU16 (value : UInt16) : OscType :=
  .int value.toNat

/-- What `broadcast_event` emits for an event. -/
def oscMessage : Event -> Option OscMessage
  | .pad pad pressure velocity phase =>
      some
        { addr := utf8 "/mk3/pad/" ++ decimal pad.val ++ utf8 "/" ++ phaseName phase
          args := .ofU16 pressure ::
            (velocity.map fun v => OscType.int v.toNat).toList }
  | .button bit pressed =>
      some
        { addr := utf8 "/mk3/button/" ++ decimal bit.val ++ utf8 "/" ++
            if pressed then utf8 "down" else utf8 "up"
          args := [] }
  | .macroEncoder index delta absolute =>
      some
        { addr := utf8 "/mk3/encoder/macro/" ++ decimal index.val
          args := [.int delta, .ofU16 absolute] }
  | .masterEncoder delta absolute =>
      some
        { addr := utf8 "/mk3/encoder/master"
          args := [.int delta, .ofU16 absolute] }
  | .touchStrip position pressure =>
      some
        { addr := utf8 "/mk3/touchstrip"
          args := [.ofU16 position, .ofU16 pressure] }
  | .touchStripReleased =>
      some
        { addr := utf8 "/mk3/touchstrip/release"
          args := [] }
  | .analog which value =>
      some
        { addr := utf8 "/mk3/analog/" ++ knobName which
          args := [.ofU16 value] }
  | .raw _ => none

/-!
## What a client reads
-/

def slash : UInt8 := 47

def OscType.u16 : OscType -> UInt16
  | .int value => UInt16.ofNat value.toNat

def OscType.value : OscType -> Int
  | .int value => value

/-- The parameter in an address segment. -/
def index? (n : Nat) (segment : List UInt8) : Option (Fin n) :=
  if h : decimalValue segment < n then some ⟨decimalValue segment, h⟩ else none

def phase? (segment : List UInt8) : Option PadPhase :=
  if segment = utf8 "down" then some .attack
  else if segment = utf8 "pressure" then some .pressure
  else if segment = utf8 "up" then some .release
  else none

def knob? (segment : List UInt8) : Option AnalogKnob :=
  if segment = utf8 "MicGain" then some .micGain
  else if segment = utf8 "Headphones" then some .headphones
  else if segment = utf8 "MasterVolume" then some .masterVolume
  else none

/-- The event of an address of five segments. -/
def longEvent? (kind param word : List UInt8) (args : List OscType) : Option Event :=
  if kind = utf8 "pad" then
    match index? padCount param, phase? word, args with
    | some pad, some phase, pressure :: more =>
        some (.pad pad pressure.u16
          (more.head?.map fun v => UInt8.ofNat v.value.toNat) phase)
    | _, _, _ => none
  else if kind = utf8 "button" then
    (index? 64 param).map fun bit => .button bit (word = utf8 "down")
  else
    match index? macroEncoderCount word, args with
    | some index, [delta, absolute] =>
        some (.macroEncoder index delta.value absolute.u16)
    | _, _ => none

/-- The event of an address of four segments. -/
def shortEvent? (kind word : List UInt8) (args : List OscType) : Option Event :=
  if kind = utf8 "encoder" then
    match args with
    | [delta, absolute] => some (.masterEncoder delta.value absolute.u16)
    | _ => none
  else if kind = utf8 "touchstrip" then some .touchStripReleased
  else
    match knob? word, args with
    | some which, [value] => some (.analog which value.u16)
    | _, _ => none

/-- A client's reading of a message. -/
def readEvent? (m : OscMessage) : Option Event :=
  match m.addr.splitOn slash with
  | [_, _, kind, param, word] => longEvent? kind param word m.args
  | [_, _, kind, word] => shortEvent? kind word m.args
  | [_, _, _] =>
      match m.args with
      | [position, pressure] => some (.touchStrip position.u16 pressure.u16)
      | _ => none
  | _ => none

/-!
## Addresses
-/

theorem u16_ofU16 (value : UInt16) : (OscType.ofU16 value).u16 = value := by
  unfold OscType.ofU16 OscType.u16
  exact UInt16.ofNat_toNat

theorem slash_not_mem_decimal (n : Nat) : slash ∉ decimal n := by
  intro hmem
  have hdigit := isDigit_of_mem_decimal hmem
  cases hdigit

theorem index?_decimal {n : Nat} (i : Fin n) : index? n (decimal i.val) = some i := by
  unfold index?
  rw [dif_pos (by rw [decimalValue_decimal]; exact i.isLt)]
  congr 1
  exact Fin.ext (decimalValue_decimal i.val)

theorem splitOn_addr {segments : List (List UInt8)}
    (h : forall s, s ∈ segments -> slash ∉ s) (hne : segments ≠ []) :
    ([slash].intercalate segments).splitOn slash = segments :=
  List.splitOn_intercalate slash h hne

/-- An address of the device with the segments after `mk3`. -/
theorem splitOn_mk3 {addr : List UInt8} {segments : List (List UInt8)}
    (haddr : addr = [slash].intercalate ([] :: utf8 "mk3" :: segments))
    (h : forall s, s ∈ segments -> slash ∉ s) :
    addr.splitOn slash = [] :: utf8 "mk3" :: segments := by
  rw [haddr]
  refine splitOn_addr ?_ (List.cons_ne_nil _ _)
  intro s hs
  rcases List.mem_cons.mp hs with rfl | hs
  · exact List.not_mem_nil
  · rcases List.mem_cons.mp hs with rfl | hs
    · decide
    · exact h s hs

/-- An address with a number in its next to last segment. -/
theorem splitOn_param (head kind : List UInt8) {word : List UInt8} (n : Nat)
    (hhead : head = [slash].intercalate [[], utf8 "mk3", kind, []])
    (hkind : slash ∉ kind) (hword : slash ∉ word) :
    (head ++ decimal n ++ utf8 "/" ++ word).splitOn slash =
      [[], utf8 "mk3", kind, decimal n, word] := by
  refine splitOn_mk3 ?_ ?_
  · rw [hhead]
    simp [List.intercalate, List.intersperse]
    rfl
  · simp only [List.forall_mem_cons]
    exact ⟨hkind, slash_not_mem_decimal n, hword, nofun⟩

theorem phase?_phaseName (phase : PadPhase) : phase? (phaseName phase) = some phase := by
  cases phase <;> decide

theorem knob?_knobName (which : AnalogKnob) : knob? (knobName which) = some which := by
  cases which <;> decide

theorem readEvent?_pad (pad : Fin padCount) (pressure : UInt16)
    (velocity : Option UInt8) (phase : PadPhase) {m : OscMessage}
    (h : oscMessage (.pad pad pressure velocity phase) = some m) :
    readEvent? m = some (.pad pad pressure velocity phase) := by
  cases h
  have hword : slash ∉ phaseName phase := by
    cases phase <;> decide
  have hvelocity : ((velocity.map fun v => OscType.int v.toNat).toList.head?.map
      fun v => UInt8.ofNat v.value.toNat) = velocity := by
    cases velocity with
    | none => rfl
    | some v => exact congrArg some UInt8.ofNat_toNat
  unfold readEvent?
  dsimp only
  rw [splitOn_param (utf8 "/mk3/pad/") (utf8 "pad") pad.val rfl (by decide) hword]
  simp only [longEvent?, if_true, index?_decimal, phase?_phaseName, u16_ofU16,
    hvelocity]

theorem readEvent?_button (bit : Fin 64) (pressed : Bool) {m : OscMessage}
    (h : oscMessage (.button bit pressed) = some m) :
    readEvent? m = some (.button bit pressed) := by
  cases h
  have hword : slash ∉ if pressed then utf8 "down" else utf8 "up" := by
    cases pressed <;> decide
  have hpad : utf8 "button" ≠ utf8 "pad" := by decide
  have hpressed : decide ((if pressed then utf8 "down" else utf8 "up") =
      utf8 "down") = pressed := by
    cases pressed <;> decide
  unfold readEvent?
  dsimp only
  rw [splitOn_param (utf8 "/mk3/button/") (utf8 "button") bit.val rfl (by decide)
    hword]
  simp only [longEvent?, hpad, if_false, if_true, index?_decimal, Option.map_some,
    hpressed]

theorem readEvent?_macro (index : Fin macroEncoderCount) (delta : Int)
    (absolute : UInt16) {m : OscMessage}
    (h : oscMessage (.macroEncoder index delta absolute) = some m) :
    readEvent? m = some (.macroEncoder index delta absolute) := by
  cases h
  have hsplit : (utf8 "/mk3/encoder/macro/" ++ decimal index.val).splitOn slash =
      [[], utf8 "mk3", utf8 "encoder", utf8 "macro", decimal index.val] := by
    refine splitOn_mk3 ?_ ?_
    · simp [List.intercalate, List.intersperse]
      rfl
    · simp only [List.forall_mem_cons]
      exact ⟨by decide, by decide, slash_not_mem_decimal _, nofun⟩
  have hpad : utf8 "encoder" ≠ utf8 "pad" := by decide
  have hbutton : utf8 "encoder" ≠ utf8 "button" := by decide
  unfold readEvent?
  dsimp only
  rw [hsplit]
  simp only [longEvent?, hpad, hbutton, if_false, index?_decimal, u16_ofU16]
  rfl

theorem readEvent?_analog (which : AnalogKnob) (value : UInt16) {m : OscMessage}
    (h : oscMessage (.analog which value) = some m) :
    readEvent? m = some (.analog which value) := by
  cases h
  have hsplit : (utf8 "/mk3/analog/" ++ knobName which).splitOn slash =
      [[], utf8 "mk3", utf8 "analog", knobName which] := by
    cases which <;> decide
  have hencoder : utf8 "analog" ≠ utf8 "encoder" := by decide
  have hstrip : utf8 "analog" ≠ utf8 "touchstrip" := by decide
  unfold readEvent?
  dsimp only
  rw [hsplit]
  simp only [shortEvent?, hencoder, hstrip, if_false, knob?_knobName, u16_ofU16]

/-- A client reads every event back from its message. -/
theorem readEvent?_oscMessage {e : Event} {m : OscMessage}
    (h : oscMessage e = some m) : readEvent? m = some e := by
  cases e with
  | pad pad pressure velocity phase =>
      exact readEvent?_pad pad pressure velocity phase h
  | button bit pressed => exact readEvent?_button bit pressed h
  | macroEncoder index delta absolute =>
      exact readEvent?_macro index delta absolute h
  | masterEncoder delta absolute =>
      cases h
      have hsplit : (utf8 "/mk3/encoder/master").splitOn slash =
          [[], utf8 "mk3", utf8 "encoder", utf8 "master"] := by decide
      unfold readEvent?
      dsimp only
      rw [hsplit]
      simp only [shortEvent?, if_true, u16_ofU16]
      rfl
  | touchStrip position pressure =>
      cases h
      have hsplit : (utf8 "/mk3/touchstrip").splitOn slash =
          [[], utf8 "mk3", utf8 "touchstrip"] := by decide
      unfold readEvent?
      dsimp only
      rw [hsplit]
      simp only [u16_ofU16]
  | touchStripReleased =>
      cases h
      decide
  | analog which value => exact readEvent?_analog which value h
  | raw report => cases h

/-- No two events are sent as the same message. -/
theorem oscMessage_injective {e e' : Event} {m : OscMessage}
    (h : oscMessage e = some m) (h' : oscMessage e' = some m) : e = e' :=
  Option.some.inj ((readEvent?_oscMessage h).symm.trans (readEvent?_oscMessage h'))

theorem oscMessage_injective_button :
    exists e, oscMessage e = oscMessage (.button 21 true) ∧ e = .button 21 true :=
  ⟨.button 21 true, rfl,
    oscMessage_injective (m := ((oscMessage (.button 21 true)).get rfl)) rfl rfl⟩

/-- The messages of a list of events, and the events a client reads. -/
theorem filterMap_readEvent? (events : List Event) :
    (events.filterMap oscMessage).filterMap readEvent? =
      events.filter fun e => (oscMessage e).isSome := by
  induction events with
  | nil => rfl
  | cons e rest ih =>
      cases hm : oscMessage e with
      | none => simp [hm, ih]
      | some m => simp [hm, ih, readEvent?_oscMessage hm]

/-- The events without a message change nothing that a client mirrors. -/
theorem mirror_filter (events : List Event) :
    mirror (events.filter fun e => (oscMessage e).isSome) = mirror events := by
  unfold mirror replay
  rw [List.foldl_filter]
  congr 1
  funext m e
  cases e <;> rfl

theorem heldPads_filter (events : List Event) :
    heldPads (events.filter fun e => (oscMessage e).isSome) = heldPads events := by
  unfold heldPads replay
  rw [List.foldl_filter]
  congr 1
  funext held e
  cases e <;> rfl

end Daemon
end OpenMk3
