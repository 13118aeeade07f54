import OpenMk3.Host.Fidelity
import OpenMk3.Host.Stream

/-!
# The daemon's requests and the host's replies

The requests that a plugin session writes, as the loop of `main` reads them one
after the other.  Numbers always arrive; paths and states arrive while they hold
no brace and no control character, as base64 never does.
-/

namespace OpenMk3
namespace Host

open Library Ascii JsonReader Session

/-- What `PluginSession::call` is used for. -/
inductive Request where
  | load (id : UInt64) (bundle stateBase64 : String)
  | midi (id : UInt64) (status data1 data2 : UInt8)
  | shutdown (id : UInt64)

namespace Request

/-- The keys of a body are in order. -/
def envelope : Request -> Envelope Json
  | load id bundle stateBase64 => SessionManager.loadRequest id bundle stateBase64
  | midi id status data1 data2 =>
      { id := id
        kind := "midi"
        body := .object
          [numberField "note" data1.toNat, numberField "status" status.toNat,
            numberField "vel" data2.toNat] }
  | shutdown id => { id := id, kind := "shutdown", body := .object [] }

/-- Neither braces nor control characters. -/
def PlainText (s : String) : Prop :=
  forall b, b ∈ utf8 s -> Not (IsBrace b) ∧ Not (IsControl b)

theorem plainText_of_all {s : String}
    (h : (utf8 s).all (fun b => decide (Not (IsBrace b) ∧ Not (IsControl b))) = true) :
    PlainText s := by
  intro b hb
  exact of_decide_eq_true (List.all_eq_true.mp h b hb)

def Plain : Request -> Prop
  | load _ bundle stateBase64 => PlainText bundle ∧ PlainText stateBase64
  | _ => True

end Request

/-!
## The requests
-/

theorem isVerb_midi : IsVerb "midi" where
  clear := by decide
  value rest := by cases rest <;> rfl
  line := by decide

theorem isVerb_shutdown : IsVerb "shutdown" where
  clear := by decide
  value rest := by cases rest <;> rfl
  line := by decide

namespace Request

/-- A midi body behind its opening brace, up to the closing one. -/
def midiText (status data1 data2 : UInt8) : List UInt8 :=
  utf8 "\"note\":" ++ (decimal data1.toNat ++ (utf8 ",\"status\":" ++
    (decimal status.toNat ++ (utf8 ",\"vel\":" ++ decimal data2.toNat))))

/-- What the host reads for a request. -/
def message : Request -> IpcMessage
  | load id bundle stateBase64 =>
      { id := id
        kind := utf8 "load"
        bodyJson := cutBody (utf8 bundle) (utf8 stateBase64) }
  | midi id status data1 data2 =>
      { id := id
        kind := utf8 "midi"
        bodyJson := lbrace :: (midiText status data1 data2 ++ [rbrace]) }
  | shutdown id => { id := id, kind := utf8 "shutdown", bodyJson := utf8 "\x7b\x7d" }

theorem not_isBrace_of_isDigit {b : UInt8} (h : isDigit b = true) :
    Not (IsBrace b) := by
  rintro (rfl | rfl) <;> cases h

theorem braceless_decimal (n : Nat) : Braceless (decimal n) :=
  fun _ hb => not_isBrace_of_isDigit (isDigit_of_mem_decimal hb)

theorem braceless_append {xs ys : List UInt8} (hx : Braceless xs)
    (hy : Braceless ys) : Braceless (xs ++ ys) := by
  intro b hb
  rcases List.mem_append.mp hb with h | h
  · exact hx b h
  · exact hy b h

theorem braceless_midiText (status data1 data2 : UInt8) :
    Braceless (midiText status data1 data2) :=
  braceless_append (by decide) (braceless_append (braceless_decimal _)
    (braceless_append (by decide) (braceless_append (braceless_decimal _)
      (braceless_append (by decide) (braceless_decimal _)))))

theorem newline_not_mem_midiText (status data1 data2 : UInt8) :
    newline ∉ midiText status data1 data2 := by
  have hdecimal : forall n, newline ∉ decimal n :=
    fun n h => decimal_ne (c := newline) rfl n _ h rfl
  unfold midiText
  simp only [List.mem_append, hdecimal, false_or, or_false]
  decide

theorem bracedValue_midiText (status data1 data2 : UInt8) :
    bracedValue 1 (midiText status data1 data2 ++ [rbrace, rbrace]) =
      midiText status data1 data2 ++ [rbrace] := by
  have hbraceless := braceless_midiText status data1 data2
  rw [bracedValue_append, bracedValue_of_braceless hbraceless Nat.one_ne_zero,
    depthAfter_of_braceless hbraceless]
  rfl

theorem line_midi (id : UInt64) (status data1 data2 : UInt8) :
    (midi id status data1 data2).envelope.line =
      requestLine id "midi" (midiText status data1 data2 ++ [rbrace, rbrace]) ++
        [newline] := by
  simp only [Envelope.line, Envelope.toJson, envelope, numberField, Json.render,
    Json.renderField, Json.renderFields, Json.renderString, requestLine, midiText,
    List.append_assoc]
  rfl

theorem line_shutdown (id : UInt64) :
    (shutdown id).envelope.line =
      requestLine id "shutdown" [rbrace, rbrace] ++ [newline] := by
  simp only [Envelope.line, Envelope.toJson, envelope, Json.render,
    Json.renderField, Json.renderFields, Json.renderString, requestLine,
    List.append_assoc]
  rfl

/-- One line of stdin is one request. -/
theorem readMessage_line (r : Request) (rest : List UInt8) :
    readMessage (r.envelope.line ++ rest) = (r.message, rest) := by
  cases r with
  | load id bundle stateBase64 =>
      exact readMessage_loadRequest id bundle stateBase64 rest
  | midi id status data1 data2 =>
      have hline : newline ∉ midiText status data1 data2 ++ [rbrace, rbrace] := by
        rw [List.mem_append]
        rintro (h | h)
        · exact newline_not_mem_midiText _ _ _ h
        · revert h
          decide
      rw [line_midi, readMessage_requestLine _ _ _ isVerb_midi hline,
        bracedValue_midiText]
      rfl
  | shutdown id =>
      rw [line_shutdown, readMessage_requestLine _ _ _ isVerb_shutdown (by decide)]
      rfl

end Request

/-!
## The values in a request
-/

/-- Digits in front of something else are read as their number. -/
theorem stoi_decimal {n : Nat} (hn : n < 2 ^ 31) {c : UInt8}
    (hc : isDigit c = false) (rest : List UInt8) :
    stoi (decimal n ++ c :: rest) = some (n : Int) := by
  have hdigits : forall b, b ∈ decimal n -> isDigit b = true :=
    fun b => isDigit_of_mem_decimal
  have htake : (decimal n ++ c :: rest).takeWhile isDigit = decimal n := by
    rw [List.takeWhile_append_of_pos hdigits, List.takeWhile_cons_of_neg (by simp [hc]),
      List.append_nil]
  have hvalue := decimalValue_decimal n
  cases hdecimal : decimal n with
  | nil => exact absurd hdecimal (decimal_ne_nil n)
  | cons d digits =>
      rw [hdecimal] at hdigits htake hvalue
      have hd := hdigits d (by simp)
      have hminus : d ≠ 45 := by
        rintro rfl
        exact absurd hd (by decide)
      have hplus : d ≠ 43 := by
        rintro rfl
        exact absurd hd (by decide)
      have hspace : ((d :: digits) ++ c :: rest).dropWhile isspace =
          (d :: digits) ++ c :: rest := by
        rw [List.cons_append, List.dropWhile_cons, isspace_of_isDigit hd]
        rfl
      have hfits : (n : Int) < 2147483648 := by
        omega
      unfold stoi
      simp only [hspace]
      simp only [List.cons_append, List.head?_cons] at htake ⊢
      simp [hminus, hplus, htake, hvalue, hfits]

theorem clearOf_field_decimal (key : String) (n : Nat) :
    clearOf (quoted key ++ [colon]) (decimal n) = true :=
  clearOf_of_forall_ne (decimal_ne (by decide) n)

theorem readInt_of_clearOf {key : String} {front : List UInt8}
    (hfront : clearOf (quoted key ++ [colon]) front = true) {n : Nat}
    (hn : n < 2 ^ 31) {c : UInt8} (hc : isDigit c = false) (rest : List UInt8) :
    readInt (front ++ ((quoted key ++ [colon]) ++ (decimal n ++ c :: rest))) key =
      (n : Int) := by
  unfold readInt behindField
  rw [after_append_of_clearOf hfront, after_append_self, Option.bind_some,
    stoi_decimal hn hc, Option.getD_some]

section Midi

variable (status data1 data2 : UInt8)

/-- The body of a midi request. -/
def midiBody : List UInt8 := lbrace :: (Request.midiText status data1 data2 ++ [rbrace])

theorem readInt_note :
    readInt (midiBody status data1 data2) "note" = (data1.toNat : Int) := by
  have hclear : clearOf (quoted "note" ++ [colon]) [lbrace] = true := by
    decide
  have h := readInt_of_clearOf hclear (data1.toNat_lt.trans (by decide))
    (c := comma) rfl (utf8 "\"status\":" ++ (decimal status.toNat ++
      (utf8 ",\"vel\":" ++ (decimal data2.toNat ++ [rbrace]))))
  unfold midiBody Request.midiText
  simp only [List.append_assoc] at h ⊢
  exact h

theorem readInt_status :
    readInt (midiBody status data1 data2) "status" = (status.toNat : Int) := by
  have hclear : clearOf (quoted "status" ++ [colon])
      (utf8 "\x7b\"note\":" ++ (decimal data1.toNat ++ [comma])) = true :=
    clearOf_append (by decide) (clearOf_append (clearOf_field_decimal _ _) (by decide))
  have h := readInt_of_clearOf hclear (status.toNat_lt.trans (by decide))
    (c := comma) rfl (utf8 "\"vel\":" ++ (decimal data2.toNat ++ [rbrace]))
  unfold midiBody Request.midiText
  simp only [List.append_assoc] at h ⊢
  exact h

theorem readInt_vel :
    readInt (midiBody status data1 data2) "vel" = (data2.toNat : Int) := by
  have hclear : clearOf (quoted "vel" ++ [colon])
      (utf8 "\x7b\"note\":" ++ (decimal data1.toNat ++ (utf8 ",\"status\":" ++
        (decimal status.toNat ++ [comma])))) = true :=
    clearOf_append (by decide) (clearOf_append (clearOf_field_decimal _ _)
      (clearOf_append (by decide)
        (clearOf_append (clearOf_field_decimal _ _) (by decide))))
  have h := readInt_of_clearOf hclear (data2.toNat_lt.trans (by decide))
    (c := rbrace) rfl []
  unfold midiBody Request.midiText
  simp only [List.append_assoc] at h ⊢
  exact h

end Midi

theorem Request.PlainText.braceless {s : String} (h : PlainText s) :
    Braceless (utf8 s) := fun b hb => (h b hb).left

theorem Request.PlainText.flatMap_reread {s : String} (h : PlainText s) :
    (utf8 s).flatMap reread = utf8 s :=
  (flatMap_reread_eq_iff (List.prefix_refl _)).mpr
    ⟨rfl, fun b hb => (h b hb).right⟩

/-!
## The conversation
-/

section Converse

variable {ι : Type} (juce : Juce ι)

def okReply (id : UInt64) : Envelope Json :=
  { id := id, kind := "ok", body := .object [] }

/-- The answer to a load, behind its events. -/
def loadAnswer (id : UInt64)
    (loaded : HostSession ι × List (Envelope Json) × Json) :
    HostSession ι × Bool × List (Envelope Json) :=
  let (s, events, body) := loaded
  (s, true, events ++ [{ id := id, kind := "load_result", body := body }])

/-- What a request asks of the session: the session, whether the loop goes on,
and the envelopes. -/
def Request.perform (s : HostSession ι) :
    Request -> HostSession ι × Bool × List (Envelope Json)
  | load id bundle stateBase64 =>
      loadAnswer id (s.load juce (utf8 bundle) (utf8 stateBase64))
  | midi id status data1 data2 =>
      (s.midi juce status.toNat data1.toNat data2.toNat, true, [okReply id])
  | shutdown id => (s.shutdown, false, [okReply id])

/-- The requests one after the other, until one ends the loop. -/
def converse : HostSession ι -> List Request -> HostSession ι × List (Envelope Json)
  | s, [] => (s, [])
  | s, r :: rest =>
      let (s', goesOn, envs) := r.perform juce s
      if goesOn then
        let (last, more) := converse s' rest
        (last, envs ++ more)
      else (s', envs)

variable {juce}

variable (juce) in
theorem handle_message {r : Request} (h : r.Plain) (s : HostSession ι) :
    s.handle juce r.message = r.perform juce s := by
  cases r with
  | load id bundle stateBase64 =>
      have hbundle : readString (cutBody (utf8 bundle) (utf8 stateBase64)) "bundle" =
          utf8 bundle := by
        rw [readString_bundle,
          bracedValue_of_braceless h.left.braceless Nat.one_ne_zero,
          h.left.flatMap_reread]
      have hstate : readString (cutBody (utf8 bundle) (utf8 stateBase64))
          "state_base64" = utf8 stateBase64 := by
        rw [readString_state, depthAfter_of_braceless h.left.braceless,
          bracedValue_of_braceless h.right.braceless Nat.one_ne_zero,
          h.right.flatMap_reread]
      have hloaded : s.handle juce (Request.load id bundle stateBase64).message =
          loadAnswer id (s.load juce
            (readString (cutBody (utf8 bundle) (utf8 stateBase64)) "bundle")
            (readString (cutBody (utf8 bundle) (utf8 stateBase64)) "state_base64")) :=
        rfl
      rw [hloaded, hbundle, hstate]
      rfl
  | midi id status data1 data2 =>
      show (s.midi juce (readInt (midiBody status data1 data2) "status")
        (readInt (midiBody status data1 data2) "note")
        (readInt (midiBody status data1 data2) "vel"), true, [okReply id]) = _
      rw [readInt_status, readInt_note, readInt_vel]
      rfl
  | shutdown id => rfl

variable (juce) in
theorem iterations_nil (s : HostSession ι) : exists msg : IpcMessage,
    msg.kind = [] ∧ iterations juce s [] = [(s, msg)] := by
  refine ⟨(readMessage []).1, rfl, ?_⟩
  rw [iterations]
  rfl

theorem iterations_line (s : HostSession ι) (r : Request) (rest : List UInt8) :
    iterations juce s (r.envelope.line ++ rest) = (s, r.message) ::
      if (s.handle juce r.message).2.1 = true then
        iterations juce (s.handle juce r.message).1 rest
      else [] := by
  rw [iterations, r.readMessage_line rest]
  simp only [dite_eq_ite]

variable (juce) in
/-- The session when the loop ends. -/
def finalSession (s : HostSession ι) (input : List UInt8) : HostSession ι :=
  match (iterations juce s input).getLast? with
  | some it => (it.1.handle juce it.2).1
  | none => s

theorem finalSession_line (s : HostSession ι) (r : Request) (rest : List UInt8) :
    finalSession juce s (r.envelope.line ++ rest) =
      if (s.handle juce r.message).2.1 = true then
        finalSession juce (s.handle juce r.message).1 rest
      else (s.handle juce r.message).1 := by
  have hne : iterations juce (s.handle juce r.message).1 rest ≠ [] := by
    rw [iterations]
    exact List.cons_ne_nil _ _
  unfold finalSession
  rw [iterations_line]
  by_cases hgoes : (s.handle juce r.message).2.1 = true
  · rw [if_pos hgoes, if_pos hgoes, List.getLast?_cons_of_ne_nil hne]
    cases hlast : (iterations juce (s.handle juce r.message).1 rest).getLast? with
    | none => exact absurd (List.getLast?_eq_none_iff.mp hlast) hne
    | some it => rfl
  · rw [if_neg hgoes, if_neg hgoes]
    rfl

/-- The bytes that the daemon writes for its requests. -/
def stdin (requests : List Request) : List UInt8 :=
  requests.flatMap fun r => r.envelope.line

/-- The loop holds the conversation that the requests ask for. -/
theorem converse_stdin {requests : List Request}
    (h : forall r, r ∈ requests -> r.Plain) (s : HostSession ι) :
    converse juce s requests =
      (finalSession juce s (stdin requests), envelopes juce s (stdin requests)) := by
  induction requests generalizing s with
  | nil =>
      rcases iterations_nil juce s with ⟨msg, hkind, hiterations⟩
      have hhandle : s.handle juce msg = (s, false, []) := if_pos hkind
      show (s, []) = (finalSession juce s [], envelopes juce s [])
      unfold finalSession envelopes
      rw [hiterations]
      simp [hhandle]
  | cons r rest ih =>
      have hhandle := handle_message juce (h r List.mem_cons_self) s
      have hrest := ih (fun r' hr' => h r' (List.mem_cons_of_mem r hr'))
      have hstdin : stdin (r :: rest) = r.envelope.line ++ stdin rest :=
        List.flatMap_cons
      rw [hstdin, finalSession_line]
      unfold envelopes
      rw [iterations_line, List.flatMap_cons, hhandle]
      unfold converse
      cases hgoes : (r.perform juce s).2.1 with
      | true =>
          simp only [hgoes, if_true, hrest]
          rfl
      | false =>
          simp only [hgoes, Bool.false_eq_true, if_false, List.flatMap_nil,
            List.append_nil]

/-!
## Whatever the strings are
-/

def Request.id : Request -> UInt64
  | load id _ _ | midi id _ _ _ | shutdown id => id

/-- The event that a midi request adds. -/
def Request.midi? : Request -> Option (Int × Int × Int)
  | midi _ status data1 data2 => some (status.toNat, data1.toNat, data2.toNat)
  | _ => none

def Request.isShutdown : Request -> Bool
  | shutdown _ => true
  | _ => false

variable (juce) in
theorem handle_request (s : HostSession ι) {r : Request}
    (h : r.isShutdown = false) :
    (s.handle juce r.message).2.1 = true ∧
      (s.handle juce r.message).1.pendingMidi =
        juce.addEvents s.pendingMidi r.midi?.toList := by
  cases r with
  | load id bundle stateBase64 =>
      have hloaded : s.handle juce (Request.load id bundle stateBase64).message =
          loadAnswer id (s.load juce
            (readString (cutBody (utf8 bundle) (utf8 stateBase64)) "bundle")
            (readString (cutBody (utf8 bundle) (utf8 stateBase64)) "state_base64")) :=
        rfl
      rw [hloaded]
      refine ⟨rfl, ?_⟩
      show (s.load juce _ _).1.pendingMidi = s.pendingMidi
      unfold HostSession.load
      cases juce.scanAndAddDragAndDroppedFiles _ with
      | nil => rfl
      | cons d rest =>
          cases hcreated : juce.createPluginInstance d with
          | error e => simp only [hcreated]
          | ok created => simp only [hcreated]
  | midi id status data1 data2 =>
      have hplain : (Request.midi id status data1 data2).Plain := trivial
      rw [handle_message juce hplain]
      exact ⟨rfl, rfl⟩
  | shutdown id => cases h

theorem messages_stdin {requests : List Request}
    (h : forall r, r ∈ requests -> r.isShutdown = false) (s : HostSession ι) :
    messages juce s (stdin requests) = requests.map Request.message ∧
      (finalSession juce s (stdin requests)).pendingMidi =
        juce.addEvents s.pendingMidi (requests.filterMap Request.midi?) := by
  induction requests generalizing s with
  | nil =>
      rcases iterations_nil juce s with ⟨msg, hkind, hiterations⟩
      have hhandle : s.handle juce msg = (s, false, []) := if_pos hkind
      show messages juce s [] = [] ∧
        (finalSession juce s []).pendingMidi = s.pendingMidi
      unfold messages finalSession
      rw [hiterations]
      simp [hkind, hhandle]
  | cons r rest ih =>
      rcases handle_request juce s (h r List.mem_cons_self) with
        ⟨hgoes, hmidi⟩
      rcases ih (fun r' hr' => h r' (List.mem_cons_of_mem r hr'))
        (s.handle juce r.message).1 with ⟨hmessages, hpending⟩
      have hstdin : stdin (r :: rest) = r.envelope.line ++ stdin rest :=
        List.flatMap_cons
      have hkind : r.message.kind ≠ [] := kind_ne_nil_of_goesOn juce hgoes
      have hfirst : messages juce s (r.envelope.line ++ stdin rest) =
          r.message :: messages juce (s.handle juce r.message).1 (stdin rest) := by
        unfold messages
        rw [iterations_line, if_pos hgoes, List.map_cons]
        exact List.filter_cons_of_pos (p := fun msg : IpcMessage => msg.kind ≠ [])
          (decide_eq_true hkind)
      rw [hstdin, hfirst, finalSession_line, if_pos hgoes, hmessages, hpending,
        hmidi]
      refine ⟨rfl, ?_⟩
      cases hr : r.midi? with
      | none => rw [List.filterMap_cons_none hr, Option.toList_none, Juce.addEvents_nil]
      | some event =>
          rw [List.filterMap_cons_some hr, Option.toList_some, Juce.addEvents_cons,
            Juce.addEvents_cons, Juce.addEvents_nil]

end Converse

/-- A session's requests in one run of the host, with any framework: the daemon
reads back the events and replies that the requests ask for, each reply under the
id of its request, and the session that the host ends with is theirs. -/
theorem requests_answered {ι : Type} {juce : Juce ι} (hcounts : juce.CountsFit)
    {fromStr : String -> Option Json} (hconforms : Conforms fromStr)
    {requests : List Request} (h : forall r, r ∈ requests -> r.Plain)
    (s : HostSession ι) :
    TakesOff fromStr (stdout juce s (stdin requests)) (converse juce s requests).2 ∧
    finalSession juce s (stdin requests) = (converse juce s requests).1 := by
  rw [converse_stdin h]
  exact ⟨takesOff_stdout hcounts hconforms s _, rfl⟩

private def loadAndPlay : List Request :=
  [.load 1 "/p.vst3" "Bwc=", .midi 2 0x90 60 100, .shutdown 3]

theorem requests_answered_loadAndPlay :
    TakesOff read
      (stdout synthJuce { plugin := none, pendingMidi := [] } (stdin loadAndPlay))
      [audioStarted,
        { id := 1
          kind := "load_result"
          body := .object [("ok", .bool true), numberField "numParams" 3] },
        okReply 2, okReply 3] := by
  have hplain : forall r, r ∈ loadAndPlay -> r.Plain := by
    simp only [loadAndPlay, List.forall_mem_cons]
    exact ⟨⟨Request.plainText_of_all (by decide), Request.plainText_of_all (by decide)⟩,
      trivial, trivial, nofun⟩
  exact (requests_answered countsFit_synthJuce conforms_read hplain
    { plugin := none, pendingMidi := [] }).left

/-- Whatever the paths and states are, even where the scanner loses part of them:
every request before a shutdown is answered once, in order, under its id, and the
midi buffer has been given the events of all of them, in order. -/
theorem requests_counted {ι : Type} {juce : Juce ι} {requests : List Request}
    (h : forall r, r ∈ requests -> r.isShutdown = false) (s : HostSession ι) :
    ((envelopes juce s (stdin requests)).filter isReply).map Envelope.id =
        requests.map Request.id ∧
      (finalSession juce s (stdin requests)).pendingMidi =
        juce.addEvents s.pendingMidi (requests.filterMap Request.midi?) := by
  rcases messages_stdin h s with ⟨hmessages, hmidi⟩
  refine ⟨?_, hmidi⟩
  rw [ids_envelopes, hmessages, List.map_map]
  apply List.map_congr_left
  intro r _
  cases r <;> rfl

/-- The path of the first request comes back cut short. -/
theorem requests_counted_cutShort :
    let requests : List Request := [.load 1 "a\x7db" "", .midi 2 0x90 60 100]
    let s : HostSession Unit := { plugin := none, pendingMidi := [] }
    ((envelopes synthJuce s (stdin requests)).filter isReply).map Envelope.id = [1, 2] ∧
      (finalSession synthJuce s (stdin requests)).pendingMidi =
        [0, 0, 0, 0, 3, 0, 0x90, 60, 100] := by
  intro requests s
  have hkeep : forall r, r ∈ requests -> r.isShutdown = false := by
    decide
  exact requests_counted hkeep s

end Host
end OpenMk3
