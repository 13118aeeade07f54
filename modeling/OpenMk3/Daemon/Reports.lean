import OpenMk3.Daemon.Load
import OpenMk3.Host.Fidelity
import OpenMk3.Host.Session
import OpenMk3.Nks.Framing

/-!
# What a load reply reports

When the reply to a `Load` says what became of the load in the host.  The
daemon takes any answer of the host for a success, so it is the host's answer
that decides; for the pluginhost of this repository that is whether it finds
the plugin and can create an instance.
-/

namespace OpenMk3
namespace Daemon

open Library Nks Plugins Session Host

/-- The answer of a host that has loaded the plugin. -/
def Loaded (answer : Envelope Json) : Prop :=
  answer.kind = "load_result" ∧ answer.body.flag? "ok" = some true

def Refused (answer : Envelope Json) : Prop :=
  answer.kind = "load_result" ∧ answer.body.flag? "ok" = some false ∨
    answer.kind = "error"

theorem Loaded.not_refused {answer : Envelope Json} (h : Loaded answer) :
    Not (Refused answer) := by
  rcases h with ⟨hkind, hok⟩
  rintro (⟨_, hrefused⟩ | herror)
  · rw [hok] at hrefused
    cases hrefused
  · rw [hkind] at herror
    exact absurd herror (by decide)

/-- The reply to a load is positive only when the host has loaded the plugin,
and negative when the host has refused. -/
structure Reports {ε : Type} (ctx : LoadContext ε) (app : App)
    (m : SessionManager Json) (l : Nat) (presetId : Int) : Prop where
  success : forall reply, ctx.handleLoad app m l presetId = some reply ->
    reply.ok = true -> exists answer, m.HostAnswers l answer ∧ Loaded answer
  refusal : forall reply answer,
    ctx.handleLoad app m l presetId = some reply -> m.HostAnswers l answer ->
    Refused answer -> reply.ok = false

section Run

variable {ε : Type} {ctx : LoadContext ε} {app : App}
variable {xs : List (ManagerAction Json)} {m : SessionManager Json}

/-- Any answer of the host makes the reply positive. -/
theorem reports_iff_loaded
    (hrun : Transition.run (SessionManager.step ctx.loadBody) .new xs = some m)
    (l : Nat) (presetId : Int) :
    Reports ctx app m l presetId <->
      forall answer, ctx.Served app m l presetId answer -> Loaded answer := by
  have hanswers : forall answer, ctx.Served app m l presetId answer ->
      m.HostAnswers l answer := by
    rintro answer ⟨_, _, _, _, houtcome⟩
    exact SessionManager.hostAnswers_of_outcome hrun
      (SessionManager.outcome_of_outcomeFor houtcome)
  constructor
  · intro h answer hserved
    rcases hserved.reply with ⟨reply, hreply, hok⟩
    rcases h.success reply hreply hok with ⟨answer', hanswer', hloaded⟩
    rw [(hanswers answer hserved).unique hanswer']
    exact hloaded
  · intro h
    refine ⟨?_, ?_⟩
    · intro reply hreply hok
      rcases LoadContext.served_of_ok hreply hok with ⟨answer, hserved⟩
      exact ⟨answer, hanswers answer hserved, h answer hserved⟩
    · intro reply answer hreply hanswer hrefused
      cases hok : reply.ok with
      | false =>
          rfl
      | true =>
          rcases LoadContext.served_of_ok hreply hok with ⟨answer', hserved⟩
          rw [hanswer.unique (hanswers answer' hserved)] at hrefused
          exact absurd hrefused (h answer' hserved).not_refused

end Run

/-!
## The pluginhost's answers
-/

section Pluginhost

variable {ι : Type} (juce : Juce ι) (s : HostSession ι)

/-- A message that the pluginhost writes when it reads a request. -/
def Writes (request answer : Envelope Json) : Prop :=
  answer ∈ (s.handle juce (readMessage request.line).1).2.2

/-- The bundle that a request names, as the pluginhost reads it. -/
def bundleRead (request : Envelope Json) : List UInt8 :=
  readString (readMessage request.line).1.bodyJson "bundle"

theorem handle_load (msg : IpcMessage) (h : msg.kind = utf8 "load") :
    (s.handle juce msg).2.2 =
      let bundle := readString msg.bodyJson "bundle"
      let state := readString msg.bodyJson "state_base64"
      (s.load juce bundle state).2.1 ++
        [{ id := msg.id
           kind := "load_result"
           body := (s.load juce bundle state).2.2 }] := by
  unfold HostSession.handle
  rw [h]
  rfl

theorem loaded_iff_canLoad {id : UInt64} {bundle state : String}
    {answer : Envelope Json} (hid : answer.id ≠ 0)
    (h : Writes juce s (SessionManager.loadRequest id bundle state) answer) :
    Loaded answer <->
      juce.CanLoad (bundleRead (SessionManager.loadRequest id bundle state)) := by
  have hread := readMessage_loadRequest id bundle state []
  rw [List.append_nil] at hread
  unfold bundleRead
  unfold Writes at h
  rw [hread] at h ⊢
  rw [handle_load juce s _ rfl] at h
  generalize cutBody (utf8 bundle) (utf8 state) = body at h ⊢
  simp only at h ⊢
  generalize readString body "bundle" = bundle' at h ⊢
  generalize readString body "state_base64" = state' at h
  unfold HostSession.load at h
  cases hscan : juce.scanAndAddDragAndDroppedFiles bundle' with
  | nil =>
      simp only [hscan, List.nil_append, List.mem_singleton] at h
      subst h
      constructor
      · intro hloaded
        cases (flag?_failureBody _).symm.trans hloaded.2
      · rintro ⟨d, rest, plugin, hfound, _⟩
        rw [hscan] at hfound
        cases hfound
  | cons d rest =>
      cases hcreate : juce.createPluginInstance d with
      | error e =>
          simp only [hscan, hcreate, List.nil_append, List.mem_singleton] at h
          subst h
          constructor
          · intro hloaded
            cases (flag?_failureBody e).symm.trans hloaded.2
          · rintro ⟨d', rest', plugin, hfound, hcreated⟩
            rw [hscan] at hfound
            cases hfound
            rw [hcreate] at hcreated
            cases hcreated
      | ok plugin =>
          simp only [hscan, hcreate, List.mem_append, List.mem_singleton] at h
          rcases h with rfl | rfl
          · exact absurd rfl hid
          · exact iff_of_true ⟨rfl, rfl⟩ ⟨d, rest, plugin, hscan, hcreate⟩

end Pluginhost

/-!
## Replies
-/

/-- The reply reports what became of the load exactly when every answer of the
host to it says that the plugin was loaded.  With the pluginhost as the host, an
answered load is reported exactly when the plugin is found and instantiated. -/
theorem load_reports_iff {ε : Type} {ctx : LoadContext ε} {app : App}
    {xs : List (ManagerAction Json)} {m : SessionManager Json}
    (hrun : Transition.run (SessionManager.step ctx.loadBody) .new xs = some m)
    (l : Nat) (presetId : Int) :
    (Reports ctx app m l presetId <->
      forall answer, ctx.Served app m l presetId answer -> Loaded answer) ∧
    forall {ι : Type} (juce : Juce ι) (s : HostSession ι)
      (request answer : Envelope Json),
      ctx.Served app m l presetId answer -> m.RequestOf l request ->
      Writes juce s request answer ->
      (Reports ctx app m l presetId <-> juce.CanLoad (bundleRead request)) := by
  have hreports : Reports ctx app m l presetId <->
      forall answer, ctx.Served app m l presetId answer -> Loaded answer :=
    reports_iff_loaded hrun l presetId
  refine ⟨hreports, ?_⟩
  intro ι juce s request answer hserved hrequest hwrites
  have hid : answer.id ≠ 0 := by
    rcases hserved with ⟨_, _, _, _, houtcome⟩
    rcases SessionManager.hostAnswers_of_outcome hrun
      (SessionManager.outcome_of_outcomeFor houtcome) with
      ⟨_, _, _, _, _, _, _, _, _, hid, _⟩
    exact hid
  have honly : (forall answer', ctx.Served app m l presetId answer' ->
      Loaded answer') <-> Loaded answer := by
    constructor
    · intro h
      exact h answer hserved
    · intro h answer' hserved'
      rcases hserved with ⟨_, _, _, _, houtcome⟩
      rcases hserved' with ⟨_, _, _, _, houtcome'⟩
      cases (SessionManager.outcome_of_outcomeFor houtcome).symm.trans
        (SessionManager.outcome_of_outcomeFor houtcome')
      exact h
  rcases hrequest.eq_load hrun with ⟨bundle, stateBase64, hload⟩
  rw [hreports, honly]
  rw [hload] at hwrites ⊢
  exact loaded_iff_canLoad juce s hid hwrites

/-!
## A refused load
-/

/-- A preset of the plugin with class id `1, 2, 3, 4` and two bytes of state. -/
def vst3Preset : List UInt8 :=
  magicRiff ++ [64, 0, 0, 0] ++ magicNiks ++
    idNisi ++ [5, 0, 0, 0] ++ [1, 0, 0, 0, 0x80] ++ [0] ++
    idPlid ++ [19, 0, 0, 0] ++ [1, 0, 0, 0] ++
      [0x81, 0xa8, 86, 83, 84, 51, 46, 117, 105, 100, 0x94, 1, 2, 3, 4] ++ [0] ++
    idPchk ++ [6, 0, 0, 0] ++ [1, 0, 0, 0, 7, 7]

def vst3Uid : Vector UInt32 4 := #v[1, 2, 3, 4]

def refusedContext : LoadContext Unit :=
  { files := fun _ => some vst3Preset
    dec :=
      { summary := fun _ => .ok {}
        plid := fun _ => .ok { vst3Uid := some [1, 2, 3, 4] } }
    base64 := fun _ => "Bwc="
    display := fun _ => "/p.vst3"
    nksError := fun _ => ""
    debug := fun _ => ""
    loadError := fun _ => "" }

def refusedApp : App :=
  { browse :=
      { rows := [{ id := 7, path := ["a.nksf"], name := "a", vendor := "v"
                   pluginRef := "", bankChain := "" }] }
    registry := Registry.scan
      [{ bundle := ["p.vst3"], name := "p", vendor := "v", classUid := vst3Uid
         categories := [] }] [] }

def refusal : Envelope Json :=
  { id := 1, kind := "load_result", body := failureBody "plugin not found" }

/-- A load that reaches a new host, which does not find the plugin. -/
def refusedLoad : List (ManagerAction Json) :=
  [.start 0 ["p.vst3"] "Bwc=", .route 0, .send 0, .inSession 0 (.insert 0),
    .inSession 0 (.write 0), .inSession 0 .hostReceives,
    .inSession 0 (.hostWrites (.envelope refusal)), .inSession 0 .read,
    .inSession 0 .dispatch, .inSession 0 (.resume 0)]

theorem refusedApp_bundle :
    refusedContext.bundleOf refusedApp (.vst3 #v[1, 2, 3, 4] none) =
      .ok ["p.vst3"] := by
  have hresolve : refusedApp.registry.resolve (.vst3 #v[1, 2, 3, 4] none) =
      some (.vst3 { bundle := ["p.vst3"], name := "p", vendor := "v"
                    classUid := vst3Uid, categories := [] }) := by
    unfold refusedApp
    apply Registry.resolve_eq_some_iff.mpr
    refine ⟨?_, [], [], rfl, by simp⟩
    simp only [Identifies, Plugins.Congruent]
    decide
  unfold LoadContext.bundleOf
  rw [hresolve]

def refusedPreset : NksFile :=
  { path := ["a.nksf"], summary := {}, plugin := .vst3 #v[1, 2, 3, 4] none
    controller := none, pchkOffset := 66, pchkLen := 2 }

theorem refusedPreset_scan :
    NksFile.scan refusedContext.dec refusedContext.files ["a.nksf"] =
      .ok refusedPreset := by
  have hhead : LoopHead refusedContext.dec vst3Preset
      { file := { content := vst3Preset, pos := 68 }
        summary := some {}
        plugin := some (.vst3 #v[1, 2, 3, 4] none)
        pchk := some (66, 2) } :=
    ⟨_, rfl, ((Reaches.start.next rfl).next rfl).next rfl⟩
  exact scan_of_loopHead rfl hhead rfl

theorem refusedLoad_served :
    exists m, Transition.run (SessionManager.step refusedContext.loadBody) .new
        refusedLoad = some m ∧
      refusedContext.Served refusedApp m 0 7 refusal := by
  refine ⟨_, rfl, _, (["p.vst3"], "Bwc="), rfl, ?_, rfl⟩
  unfold LoadContext.prepare
  simp only [refusedPreset_scan, Fallible.mapError_ok, Fallible.ok_bind]
  show (refusedContext.bundleOf refusedApp (.vst3 #v[1, 2, 3, 4] none)).bind _ = _
  rw [refusedApp_bundle]
  rfl

/-- The host's refusal reaches the client as a success. -/
theorem refusedLoad_not_reported :
    Not (forall m, Transition.run (SessionManager.step refusedContext.loadBody) .new
        refusedLoad = some m ->
      Reports refusedContext refusedApp m 0 7) := by
  intro h
  rcases refusedLoad_served with ⟨m, hrun, hserved⟩
  rcases hserved.reply with ⟨reply, hreply, hok⟩
  have hanswers : m.HostAnswers 0 refusal := by
    rcases hserved with ⟨_, _, _, _, houtcome⟩
    exact SessionManager.hostAnswers_of_outcome hrun
      (SessionManager.outcome_of_outcomeFor houtcome)
  have hnegative := (h m hrun).refusal reply refusal hreply hanswers
    (Or.inl ⟨rfl, rfl⟩)
  rw [hok] at hnegative
  cases hnegative

/-- A framework that finds no plugin. -/
private def emptyJuce : Juce Unit where
  scanAndAddDragAndDroppedFiles _ := []
  createPluginInstance _ := .ok ()
  convertFromBase64 text := text
  setStateInformation _ _ := ()
  prepareToPlay _ := ()
  numParameters _ := 0
  setValueNotifyingHost _ _ _ := ()
  addEvent buffer _ _ _ := buffer

private def refusedRequest : Envelope Json :=
  SessionManager.loadRequest 1 "/p.vst3" "Bwc="

private theorem writes_refusal (s : HostSession Unit) :
    Writes emptyJuce s refusedRequest refusal := by
  have hread := readMessage_loadRequest 1 "/p.vst3" "Bwc=" []
  rw [List.append_nil] at hread
  unfold Writes refusedRequest
  rw [hread, handle_load emptyJuce s _ rfl]
  exact List.mem_singleton.mpr rfl

theorem load_reports_iff_refused :
    exists m, Transition.run (SessionManager.step refusedContext.loadBody) .new
        refusedLoad = some m ∧
      (Reports refusedContext refusedApp m 0 7 <->
        forall answer, refusedContext.Served refusedApp m 0 7 answer ->
          Loaded answer) ∧
      (Reports refusedContext refusedApp m 0 7 <->
        emptyJuce.CanLoad (bundleRead refusedRequest)) := by
  have hsome : (Transition.run (SessionManager.step refusedContext.loadBody) .new
      refusedLoad).isSome = true := rfl
  rcases refusedLoad_served with ⟨m, hrun, hserved⟩
  have hrequest : m.RequestOf 0 refusedRequest := by
    have hget : m = Option.get _ hsome :=
      Option.some.inj (hrun.symm.trans (Option.some_get hsome).symm)
    rw [hget]
    exact ⟨_, _, _, rfl, rfl, rfl⟩
  rcases load_reports_iff hrun 0 7 with ⟨hloaded, hpluginhost⟩
  exact ⟨m, hrun, hloaded,
    hpluginhost emptyJuce { plugin := none, pendingMidi := [] } refusedRequest refusal
      hserved hrequest (writes_refusal _)⟩

end Daemon
end OpenMk3
