import OpenMk3.Daemon.Reports
import OpenMk3.Host.Dialogue
import OpenMk3.Library.Base64
import OpenMk3.Nks.RoundTrip

/-!
# From a preset file to the plugin

The way of a plugin state through the whole of the program: the container on disk,
`scan` and `read_state`, the base64 text in the request of `load_preset`, the line on
the pipe, the scanner of the host, and `setStateInformation`.  A session is followed
through any number of loads, those that fail included, and midi events.
-/

namespace OpenMk3
namespace Daemon

open Library Nks Host Ui Session

/-!
## Base64 in a request
-/

/-- A load of a preset, or a midi event. -/
inductive SessionOp where
  | preset (id : UInt64) (row : PresetRow)
  | midi (id : UInt64) (status data1 data2 : UInt8)

section Session

variable {ε ι : Type} (ctx : LoadContext ε) (app : App) (juce : Juce ι)

/-- The request that is sent, if the daemon gets so far. -/
def SessionOp.request : SessionOp -> Option Host.Request
  | preset id row =>
      (ctx.prepare app row).toOption.map fun (bundle, stateBase64) =>
        .load id (ctx.display bundle) stateBase64
  | midi id status data1 data2 => some (.midi id status data1 data2)

/-- A new instance of the plugin in a bundle, in the given state. -/
def instanceIn (bundle : String) (state : List UInt8) : Option ι :=
  match juce.scanAndAddDragAndDroppedFiles (utf8 bundle) with
  | [] => none
  | d :: _ =>
      match juce.createPluginInstance d with
      | .error _ => none
      | .ok created =>
          some (juce.prepareToPlay
            (if state = [] then created else juce.setStateInformation created state))

/-- The bundle and the state that the chunks of a preset ask for. -/
def target (chunks : List Chunk) : Option (Path × List UInt8) := do
  let preset <- (decodeContainer ctx.dec chunks).toOption
  let bundle <- (ctx.bundleOf app preset.plugin).toOption
  some (bundle, preset.state)

/-- What an operation makes of the preset files, as their chunks say. -/
def SessionOp.plugin? (content : Path -> List Chunk) : SessionOp -> Option ι
  | preset _ row =>
      (target ctx app (content row.path)).bind fun (bundle, state) =>
        instanceIn juce (ctx.display bundle) state
  | midi .. => none

def SessionOp.event? : SessionOp -> Option (Int × Int × Int)
  | preset .. => none
  | midi _ status data1 data2 => some (status.toNat, data1.toNat, data2.toNat)

end Session

variable {ε ι : Type} {ctx : LoadContext ε} {app : App} {juce : Juce ι}

/-- The step of a session that an operation makes. -/
def SessionOp.after (ctx : LoadContext ε) (app : App) (juce : Juce ι)
    (content : Path -> List Chunk) (s : HostSession ι) (op : SessionOp) :
    HostSession ι where
  plugin := (op.plugin? ctx app juce content).or s.plugin
  pendingMidi := juce.addEvents s.pendingMidi op.event?.toList

end Daemon
end OpenMk3
