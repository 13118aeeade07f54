import OpenMk3.Host.Message
import OpenMk3.Session.Plugin

/-!
# The pluginhost's session

`Session::load` and the loop of `main` that answers the daemon's messages.  What
the host uses of the plugin framework is a parameter.  An envelope stands for
the line that `write_message` prints, with its body as the daemon parses it.
-/

namespace OpenMk3
namespace Host

open Library Session

structure PluginDescription where
  name : String
  manufacturerName : String
  pluginFormatName : String
  category : String
  numInputChannels : Nat
  numOutputChannels : Nat
  isInstrument : Bool

/-- The plugin framework, with plugin instances of type `ι`. -/
structure Juce (ι : Type) where
  scanAndAddDragAndDroppedFiles : List UInt8 -> List PluginDescription
  createPluginInstance : PluginDescription -> Except String ι
  convertFromBase64 : List UInt8 -> List UInt8
  setStateInformation : ι -> List UInt8 -> ι
  prepareToPlay : ι -> ι
  numParameters : ι -> Nat
  -- The value is the text that `std::stof` is given.
  setValueNotifyingHost : ι -> Nat -> List UInt8 -> ι
  -- The bytes of a `MidiBuffer` behind `addEvent(MidiMessage(status, d1, d2), 0)`.
  addEvent : List UInt8 -> Int -> Int -> Int -> List UInt8

structure HostSession (ι : Type) where
  plugin : Option ι
  pendingMidi : List UInt8

variable {ι : Type} (juce : Juce ι)

/-- The buffer behind one `addEvent` after the other. -/
def Juce.addEvents (buffer : List UInt8) (events : List (Int × Int × Int)) :
    List UInt8 :=
  events.foldl (fun added (status, d1, d2) => juce.addEvent added status d1 d2) buffer

@[simp] theorem Juce.addEvents_nil (buffer : List UInt8) :
    juce.addEvents buffer [] = buffer := rfl

@[simp] theorem Juce.addEvents_cons (buffer : List UInt8) (e : Int × Int × Int)
    (rest : List (Int × Int × Int)) :
    juce.addEvents buffer (e :: rest) =
      juce.addEvents (juce.addEvent buffer e.1 e.2.1 e.2.2) rest := rfl

/-- The bundle holds a plugin, and its instance can be created. -/
def Juce.CanLoad (bundle : List UInt8) : Prop :=
  exists d rest plugin,
    juce.scanAndAddDragAndDroppedFiles bundle = d :: rest ∧
    juce.createPluginInstance d = .ok plugin

def failureBody (text : String) : Json :=
  .object [("ok", .bool false), ("error", .string text)]

theorem flag?_failureBody (text : String) :
    (failureBody text).flag? "ok" = some false := rfl

def numberField (name : String) (n : Nat) : String × Json :=
  (name, .number (decimal n))

def scanBundle (bundle : List UInt8) : Json :=
  match juce.scanAndAddDragAndDroppedFiles bundle with
  | [] => failureBody "no plugin found in bundle"
  | d :: _ =>
      .object
        [("ok", .bool true), ("name", .string d.name),
          ("vendor", .string d.manufacturerName),
          ("format", .string d.pluginFormatName),
          ("category", .string d.category),
          numberField "numInputs" d.numInputChannels,
          numberField "numOutputs" d.numOutputChannels,
          ("isInstrument", .bool d.isInstrument)]

def audioStarted : Envelope Json :=
  { id := 0
    kind := "audio_started"
    body := .object [numberField "sample_rate" 48000, numberField "block" 512] }

namespace HostSession

variable (s : HostSession ι)

/-- The session afterwards, the events sent, and the body that is returned. -/
def load (bundle state : List UInt8) :
    HostSession ι × List (Envelope Json) × Json :=
  match juce.scanAndAddDragAndDroppedFiles bundle with
  | [] => (s, [], failureBody "plugin not found")
  | d :: _ =>
      match juce.createPluginInstance d with
      | .error error => (s, [], failureBody error)
      | .ok created =>
          let restored :=
            if state = [] then created
            else juce.setStateInformation created (juce.convertFromBase64 state)
          let plugin := juce.prepareToPlay restored
          ({ s with plugin := some plugin }, [audioStarted],
            .object
              [("ok", .bool true), numberField "numParams" (juce.numParameters plugin)])

def midi (status d1 d2 : Int) : HostSession ι :=
  { s with pendingMidi := juce.addEvent s.pendingMidi status d1 d2 }

def setParameter (index : Int) (value : Option (List UInt8)) : HostSession ι :=
  match s.plugin with
  | none => s
  | some plugin =>
      if 0 <= index && index < juce.numParameters plugin then
        { s with
          plugin := some
            (juce.setValueNotifyingHost plugin index.toNat (value.getD [])) }
      else s

def shutdown : HostSession ι := { s with plugin := none }

/-- One iteration of the loop of `main`: the session, whether the loop goes on,
and the messages written. -/
def handle (msg : IpcMessage) : HostSession ι × Bool × List (Envelope Json) :=
  let reply (kind : String) (body : Json) : Envelope Json :=
    { id := msg.id, kind := kind, body := body }
  if msg.kind = [] then (s, false, [])
  else if msg.kind = utf8 "shutdown" then
    (s.shutdown, false, [reply "ok" (.object [])])
  else if msg.kind = utf8 "scan" then
    let bundle := readString msg.bodyJson "bundle"
    (s, true, [reply "scan_result" (scanBundle juce bundle)])
  else if msg.kind = utf8 "load" then
    let bundle := readString msg.bodyJson "bundle"
    let state := readString msg.bodyJson "state_base64"
    let (s', events, body) := s.load juce bundle state
    (s', true, events ++ [reply "load_result" body])
  else if msg.kind = utf8 "midi" then
    let status := readInt msg.bodyJson "status"
    let d1 := readInt msg.bodyJson "note"
    let d2 := readInt msg.bodyJson "vel"
    (s.midi juce status d1 d2, true, [reply "ok" (.object [])])
  else if msg.kind = utf8 "set_param" then
    let index := readInt msg.bodyJson "index"
    let value := behindField msg.bodyJson "value"
    (s.setParameter juce index value, true, [reply "ok" (.object [])])
  else
    (s, true, [reply "error" (.object [("error", .string "unknown verb")])])

end HostSession

end Host
end OpenMk3
