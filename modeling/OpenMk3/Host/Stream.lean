import OpenMk3.Host.Escaping

/-!
# The pluginhost's streams

The loop of `main` from the bytes on stdin to the bytes on stdout.  Whatever the
bytes are, the daemon's reader takes them off again as the envelopes of the
session, one line each, and every message that the loop read has its reply.
-/

namespace OpenMk3
namespace Host

open Library Ascii JsonReader Session

section Main

variable {ι : Type} (juce : Juce ι)

/-- The events that `Session::load` sends before it returns. -/
def loadEvents (bundle : List UInt8) : List (List UInt8) :=
  match juce.scanAndAddDragAndDroppedFiles bundle with
  | [] => []
  | d :: _ =>
      match juce.createPluginInstance d with
      | .error _ => []
      | .ok _ =>
          [writeMessage
            { id := 0
              kind := utf8 "audio_started"
              bodyJson := utf8 "\x7b\"sample_rate\":48000,\"block\":512\x7d" }]

/-- The lines that one iteration of the loop writes. -/
def written (msg : IpcMessage) : List (List UInt8) :=
  let reply (kind : String) (bodyJson : List UInt8) : List UInt8 :=
    writeMessage { id := msg.id, kind := utf8 kind, bodyJson := bodyJson }
  if msg.kind = [] then []
  else if msg.kind = utf8 "shutdown" then [reply "ok" (utf8 "\x7b\x7d")]
  else if msg.kind = utf8 "scan" then
    let bundle := readString msg.bodyJson "bundle"
    [reply "scan_result" (scanBundleJson juce bundle)]
  else if msg.kind = utf8 "load" then
    let bundle := readString msg.bodyJson "bundle"
    let state := readString msg.bodyJson "state_base64"
    loadEvents juce bundle ++ [reply "load_result" (loadJson juce bundle state)]
  else if msg.kind = utf8 "midi" then [reply "ok" (utf8 "\x7b\x7d")]
  else if msg.kind = utf8 "set_param" then [reply "ok" (utf8 "\x7b\x7d")]
  else [reply "error" (utf8 "\x7b\"error\":\"unknown verb\"\x7d")]

theorem getline_length {input line rest : List UInt8}
    (h : getline input = some (line, rest)) : rest.length < input.length := by
  unfold getline at h
  split at h
  · cases h
  · next hne =>
      cases h
      have hpos := List.length_pos_iff.mpr hne
      have hle := (List.dropWhile_sublist (· != newline) (l := input)).length_le
      rw [List.length_drop]
      omega

/-- A message with a kind takes a line off the input. -/
theorem readMessage_length {input : List UInt8}
    (h : (readMessage input).1.kind ≠ []) :
    (readMessage input).2.length < input.length := by
  unfold readMessage at h ⊢
  cases hline : getline input with
  | none =>
      rw [hline] at h
      exact absurd rfl h
  | some found => exact getline_length hline

theorem kind_ne_nil_of_goesOn {s : HostSession ι} {msg : IpcMessage}
    (h : (s.handle juce msg).2.1 = true) : msg.kind ≠ [] := by
  intro hkind
  unfold HostSession.handle at h
  rw [if_pos hkind] at h
  cases h

/-- The sessions at the head of the loop, each with the message it reads. -/
def iterations (s : HostSession ι) (input : List UInt8) :
    List (HostSession ι × IpcMessage) :=
  let msg := (readMessage input).1
  (s, msg) ::
    if _ : (s.handle juce msg).2.1 = true then
      iterations (s.handle juce msg).1 (readMessage input).2
    else []
termination_by input.length
decreasing_by
  exact readMessage_length (kind_ne_nil_of_goesOn juce ‹_›)

/-- The bytes that `main` writes. -/
def stdout (s : HostSession ι) (input : List UInt8) : List UInt8 :=
  ((iterations juce s input).flatMap fun it => written juce it.2).flatten

/-- The messages that the loop reads, without the end of the input. -/
def messages (s : HostSession ι) (input : List UInt8) : List IpcMessage :=
  ((iterations juce s input).map Prod.snd).filter fun msg => msg.kind ≠ []

/-- The envelopes of a run of the loop. -/
def envelopes (s : HostSession ι) (input : List UInt8) : List (Envelope Json) :=
  (iterations juce s input).flatMap fun it => (it.1.handle juce it.2).2.2

end Main

/-!
## What the daemon reads
-/

/-- The daemon's read loop takes these envelopes off the bytes, to their end. -/
inductive TakesOff (fromStr : String -> Option Json) :
    List UInt8 -> List (Envelope Json) -> Prop where
  | done : TakesOff fromStr [] []
  | next {bytes rest : List UInt8} {env : Envelope Json} {envs : List (Envelope Json)}
      (hread : readLoop fromStr bytes = some (.envelope env, rest))
      (hrest : TakesOff fromStr rest envs) : TakesOff fromStr bytes (env :: envs)

theorem takesOff_flatten {fromStr : String -> Option Json}
    {lines : List (List UInt8)} {envs : List (Envelope Json)}
    (h : List.Forall₂ (ReadsAs fromStr) lines envs) :
    TakesOff fromStr lines.flatten envs := by
  induction h with
  | nil => exact .done
  | cons hline _ ih => exact .next (hline.right _) ih

section Reads

variable {ι : Type} {juce : Juce ι} (hcounts : juce.CountsFit)
  {fromStr : String -> Option Json} (hconforms : Conforms fromStr)

theorem prints_empty : Prints (IsText 2) (.object []) (utf8 "\x7b\x7d") :=
  ⟨_, .object .empty, rfl⟩

theorem prints_unknownVerb :
    Prints (IsText 2) (.object [("error", .string "unknown verb")])
      (utf8 "\x7b\"error\":\"unknown verb\"\x7d") := by
  have herror := prints_field (prints_name (s := "error") rfl)
    (prints_stringValue (IsText 0) "unknown verb")
  exact (prints_object (prints_last herror)).congr rfl

theorem prints_audioStarted :
    Prints (IsText 2) audioStarted.body
      (utf8 "\x7b\"sample_rate\":48000,\"block\":512\x7d") := by
  have hrate := prints_field (prints_name (s := "sample_rate") rfl)
    (prints_number (IsText 0) (n := 48000) (by decide))
  have hblock := prints_field (prints_name (s := "block") rfl)
    (prints_number (IsText 0) (n := 512) (by decide))
  exact (prints_object (prints_cons hrate (prints_last hblock))).congr rfl

include hconforms

/-- One line for one envelope of a fixed kind. -/
theorem forall₂_reply (id : UInt64) {kind : String} {body : Json}
    {bytes : List UInt8} (hkind : jsonEscape (utf8 kind) = utf8 kind)
    (h : Prints (IsText 2) body bytes) :
    List.Forall₂ (ReadsAs fromStr)
      [writeMessage { id := id, kind := utf8 kind, bodyJson := bytes }]
      [{ id := id, kind := kind, body := body }] :=
  .cons (readsAs_writeMessage hconforms { id := id, kind := kind, body := body }
    hkind h) .nil

theorem forall₂_loadEvents (s : HostSession ι) (bundle state : List UInt8) :
    List.Forall₂ (ReadsAs fromStr) (loadEvents juce bundle)
      (s.load juce bundle state).2.1 := by
  unfold loadEvents HostSession.load
  cases juce.scanAndAddDragAndDroppedFiles bundle with
  | nil => exact .nil
  | cons d rest =>
      cases hcreated : juce.createPluginInstance d with
      | error e =>
          simp only [hcreated]
          exact .nil
      | ok created =>
          simp only [hcreated]
          exact forall₂_reply hconforms 0 rfl prints_audioStarted

include hcounts

/-- Every line of an iteration is read as the envelope it stands for. -/
theorem forall₂_written (s : HostSession ι) (msg : IpcMessage) :
    List.Forall₂ (ReadsAs fromStr) (written juce msg) (s.handle juce msg).2.2 := by
  unfold written HostSession.handle
  split
  · exact .nil
  · split
    · exact forall₂_reply hconforms msg.id rfl prints_empty
    · split
      · exact forall₂_reply hconforms msg.id rfl (prints_scanBundle hcounts _)
      · split
        · exact List.rel_append (forall₂_loadEvents hconforms s _ _)
            (forall₂_reply hconforms msg.id rfl (prints_load hcounts s _ _))
        · split
          · exact forall₂_reply hconforms msg.id rfl prints_empty
          · split
            · exact forall₂_reply hconforms msg.id rfl prints_empty
            · exact forall₂_reply hconforms msg.id rfl prints_unknownVerb

theorem takesOff_stdout (s : HostSession ι) (input : List UInt8) :
    TakesOff fromStr (stdout juce s input) (envelopes juce s input) := by
  apply takesOff_flatten
  unfold envelopes
  induction iterations juce s input with
  | nil => exact .nil
  | cons it rest ih =>
      exact List.rel_append (forall₂_written hcounts hconforms it.1 it.2) ih

omit hcounts hconforms

/-- Events are told from replies by their kind. -/
def isReply (env : Envelope Json) : Bool :=
  env.kind ≠ "audio_started"

theorem filter_loadEvents (s : HostSession ι) (bundle state : List UInt8) :
    (s.load juce bundle state).2.1.filter isReply = [] := by
  unfold HostSession.load
  cases juce.scanAndAddDragAndDroppedFiles bundle with
  | nil => rfl
  | cons d rest =>
      cases hcreated : juce.createPluginInstance d with
      | error e =>
          simp only [hcreated]
          rfl
      | ok created =>
          simp only [hcreated]
          rfl

/-- An iteration replies once, with the id of its message. -/
theorem ids_handle (s : HostSession ι) (msg : IpcMessage) :
    ((s.handle juce msg).2.2.filter isReply).map Envelope.id =
      if msg.kind = [] then [] else [msg.id] := by
  unfold HostSession.handle
  split
  · rfl
  · split
    · rfl
    · split
      · rfl
      · split
        · show (((s.load juce _ _).2.1 ++ [_]).filter isReply).map Envelope.id = _
          rw [List.filter_append, filter_loadEvents]
          rfl
        · split
          · rfl
          · split <;> rfl

theorem ids_envelopes (s : HostSession ι) (input : List UInt8) :
    ((envelopes juce s input).filter isReply).map Envelope.id =
      (messages juce s input).map IpcMessage.id := by
  unfold envelopes messages
  induction iterations juce s input with
  | nil => rfl
  | cons it rest ih =>
      rw [List.flatMap_cons, List.filter_append, List.map_append, ids_handle, ih,
        List.map_cons, List.filter_cons]
      by_cases hkind : it.2.kind = [] <;> simp [hkind]

end Reads

/-- Whatever the daemon, or anything else, writes to the host's stdin: what comes
back on stdout is read as the envelopes of the session, to its end, and the
replies among them answer the messages one for one, in order, by their ids. -/
theorem stdout_answers_stdin {ι : Type} {juce : Juce ι} (hcounts : juce.CountsFit)
    {fromStr : String -> Option Json} (hconforms : Conforms fromStr)
    (s : HostSession ι) (input : List UInt8) :
    TakesOff fromStr (stdout juce s input) (envelopes juce s input) ∧
    ((envelopes juce s input).filter isReply).map Envelope.id =
      (messages juce s input).map IpcMessage.id :=
  ⟨takesOff_stdout hcounts hconforms s input, ids_envelopes s input⟩

/-- A framework that finds one plugin in every bundle.  Its midi buffer takes the
messages of three bytes, each behind its position and its length. -/
def synthJuce : Juce Unit where
  scanAndAddDragAndDroppedFiles _ :=
    [{ name := "Synth"
       manufacturerName := "Maker"
       pluginFormatName := "VST3"
       category := "Instrument"
       numInputChannels := 0
       numOutputChannels := 2
       isInstrument := true }]
  createPluginInstance _ := .ok ()
  convertFromBase64 text := text
  setStateInformation _ _ := ()
  prepareToPlay _ := ()
  numParameters _ := 3
  setValueNotifyingHost _ _ _ := ()
  addEvent buffer status d1 d2 :=
    if 0x80 <= status && status < 0xc0 then
      buffer ++ [0, 0, 0, 0, 3, 0, .ofInt status, .ofInt d1, .ofInt d2]
    else buffer

theorem countsFit_synthJuce : synthJuce.CountsFit := by
  have hparams : 3 < 2 ^ 31 := by
    decide
  refine ⟨?_, fun _ => hparams⟩
  intro bundle d hd
  rw [List.mem_singleton.mp hd]
  decide

/-- A note for a session without a plugin, and nothing behind it. -/
private def noteLine : List UInt8 :=
  utf8 "\x7b\"id\":3,\"kind\":\"midi\",\"body\":\x7b\"status\":144\x7d\x7d\n"

theorem stdout_answers_stdin_noteLine :
    let s : HostSession Unit := { plugin := none, pendingMidi := [] }
    TakesOff read (stdout synthJuce s noteLine)
        [{ id := 3, kind := "ok", body := .object [] }] ∧
      (messages synthJuce s noteLine).map IpcMessage.id = [3] := by
  intro s
  rcases stdout_answers_stdin countsFit_synthJuce conforms_read s noteLine with
    ⟨hread, hids⟩
  have hgoes : (s.handle synthJuce (readMessage noteLine).1).2.1 = true := rfl
  have hrest : (readMessage noteLine).2 = [] := rfl
  have hiterations : iterations synthJuce s noteLine =
      [(s, (readMessage noteLine).1),
        ((s.handle synthJuce (readMessage noteLine).1).1, (readMessage []).1)] := by
    rw [iterations, dif_pos hgoes, hrest, iterations]
    rfl
  have henvelopes : envelopes synthJuce s noteLine =
      [{ id := 3, kind := "ok", body := .object [] }] := by
    unfold envelopes
    rw [hiterations]
    rfl
  rw [henvelopes] at hread hids
  exact ⟨hread, hids.symm⟩

end Host
end OpenMk3
