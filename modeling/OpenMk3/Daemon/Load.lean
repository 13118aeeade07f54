import OpenMk3.Daemon.Uds
import OpenMk3.Nks.Riff
import OpenMk3.Plugins.Registry
import OpenMk3.Session.Outcome
import OpenMk3.Session.Wire
import OpenMk3.Ui.Browse

/-!
# Loading a preset

The `Load` arm of `handle_uds_op` and `load_preset`.  The session manager is in
whatever state its runs have brought it to, and one of its loads is the one
that `load_preset` awaits; until that load has returned there is no reply.
-/

namespace OpenMk3
namespace Daemon

open Library Nks Plugins Session Ui

structure App where
  browse : BrowseState
  registry : Registry

/-- The file system and the texts of the crates that `load_preset` calls. -/
structure LoadContext (ε : Type) where
  files : Files
  dec : MsgPack ε
  base64 : List UInt8 -> String
  display : Path -> String
  nksError : NksError ε -> String
  debug : NksPluginId -> String
  loadError : LoadError -> String

namespace LoadContext

variable {ε : Type} (ctx : LoadContext ε)

/-- The body that the session manager sends for a bundle and a state. -/
def loadBody (bundle : Path) (stateBase64 : String) : Json :=
  SessionManager.loadBody (ctx.display bundle) stateBase64

/-- The bundle of the plugin that a preset names, if it can be hosted. -/
def bundleOf (app : App) (plugin : NksPluginId) : Except String Path :=
  match app.registry.resolve plugin with
  | none => .error ("no installed plugin for " ++ ctx.debug plugin)
  | some (.vst3 v) => .ok v.bundle
  | some (.audioUnit a) =>
      .error ("AU loading via pluginhost is M5.2 work; plugin: " ++ a.name)

/-- `load_preset` up to the session manager: the arguments of the load. -/
def prepare (app : App) (row : PresetRow) : Except String (Path × String) := do
  let nks <- (NksFile.scan ctx.dec ctx.files row.path).mapError ctx.nksError
  let bundle <- ctx.bundleOf app nks.plugin
  let state <- (NksFile.readState ctx.files nks).mapError ctx.nksError
  .ok (bundle, ctx.base64 state)

/-- `load_preset`, given what the load returned. -/
def loadPreset (app : App) (row : PresetRow)
    (loaded : Except LoadError (Envelope Json)) : Except String Json := do
  let (bundle, _) <- ctx.prepare app row
  let env <- loaded.mapError ctx.loadError
  .ok (.object
    [("bundle", .string (ctx.display bundle)), ("pluginhost", env.body)])

/-- The `Load` arm of `handle_uds_op`, where load `l` of the session manager is
the one that `load_preset` starts. -/
def handleLoad (app : App) (m : SessionManager Json) (l : Nat) (presetId : Int) :
    Option Reply :=
  match app.browse.rows.find? fun row => row.id == presetId with
  | none => some (errorReply "preset not in current view")
  | some row =>
      match ctx.prepare app row with
      | .error e => some (errorReply e)
      | .ok (bundle, stateBase64) =>
          (m.outcomeFor l bundle stateBase64).map fun loaded =>
            match ctx.loadPreset app row loaded with
            | .ok info => { ok := true, payload := info }
            | .error e => errorReply e

/-- The op got as far as the host, which answered it. -/
def Served (app : App) (m : SessionManager Json) (l : Nat) (presetId : Int)
    (answer : Envelope Json) : Prop :=
  exists row args,
    app.browse.rows.find? (fun row => row.id == presetId) = some row ∧
    ctx.prepare app row = .ok args ∧
    m.outcomeFor l args.1 args.2 = some (.ok answer)

variable {ctx} {app : App} {m : SessionManager Json} {l : Nat} {presetId : Int}

theorem Served.reply {answer : Envelope Json}
    (h : ctx.Served app m l presetId answer) :
    exists reply, ctx.handleLoad app m l presetId = some reply ∧
      reply.ok = true := by
  rcases h with ⟨row, args, hrow, hprepare, houtcome⟩
  let info : Json :=
    .object [("bundle", .string (ctx.display args.1)), ("pluginhost", answer.body)]
  refine ⟨{ ok := true, payload := info }, ?_, rfl⟩
  simp only [handleLoad, loadPreset, hrow, hprepare, houtcome, Option.map_some]
  rfl

/-- A reply is positive only when the host answered. -/
theorem served_of_ok {reply : Reply}
    (hreply : ctx.handleLoad app m l presetId = some reply)
    (hok : reply.ok = true) :
    exists answer, ctx.Served app m l presetId answer := by
  unfold handleLoad at hreply
  cases hrow : app.browse.rows.find? fun row => row.id == presetId with
  | none =>
      simp only [hrow, Option.some.injEq] at hreply
      subst hreply
      cases hok
  | some row =>
      simp only [hrow] at hreply
      cases hprepare : ctx.prepare app row with
      | error e =>
          simp only [hprepare, Option.some.injEq] at hreply
          subst hreply
          cases hok
      | ok args =>
          simp only [hprepare] at hreply
          rcases Option.map_eq_some_iff.mp hreply with ⟨loaded, houtcome, hloaded⟩
          cases loaded with
          | ok answer =>
              exact ⟨answer, row, args, hrow, hprepare, houtcome⟩
          | error e =>
              simp only [loadPreset, hprepare] at hloaded
              subst hloaded
              cases hok

end LoadContext

end Daemon
end OpenMk3
