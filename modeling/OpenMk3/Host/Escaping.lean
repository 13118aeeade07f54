import OpenMk3.Host.Session
import OpenMk3.Library.JsonPrinting
import OpenMk3.Session.Wire

/-!
# The lines that the host writes

`json_escape`, the bodies that `Session::scan_bundle` and `Session::load` put
together around it, and the envelope that `write_message` puts around a body.
What is put together is a JSON text of the value that the session model has, so
that the daemon reads every reply back.
-/

namespace OpenMk3
namespace Host

open Library Ascii JsonReader

/-!
## Escaping
-/

/-- One byte of `json_escape`. -/
def jsonEscapeByte (c : UInt8) : List UInt8 :=
  if c = quote then utf8 "\\\""
  else if c = backslash then utf8 "\\\\"
  else if c = newline then utf8 "\\n"
  else if c = 13 then utf8 "\\r"
  else if c = 9 then utf8 "\\t"
  else if c < 0x20 then utf8 "\\u" ++ (hexDigits 4 c.toNat).map Char.toUInt8
  else [c]

def jsonEscape (s : List UInt8) : List UInt8 := s.flatMap jsonEscapeByte

/-- A quote in a text without a backslash before it, which has none before it
itself; `escaped` is for the first byte. -/
def unescapedQuote (escaped : Bool) : List UInt8 -> Bool
  | [] => false
  | c :: rest =>
      (!escaped && c == quote) || unescapedQuote (!escaped && c == backslash) rest

theorem jsonEscape_cons (c : UInt8) (s : List UInt8) :
    jsonEscape (c :: s) = jsonEscapeByte c ++ jsonEscape s := rfl

theorem escaped_jsonEscapeByte (c : UInt8) : Escaped c (jsonEscapeByte c) := by
  unfold jsonEscapeByte
  split_ifs with hquote hbackslash h10 h13 h9 hcontrol
  · subst hquote
    exact .marked (Or.inl rfl)
  · subst hbackslash
    exact .marked (Or.inr rfl)
  · subst h10
    exact .named (by decide) (List.forall_mem_singleton.mpr (by decide))
  · subst h13
    exact .named (by decide) (List.forall_mem_singleton.mpr (by decide))
  · subst h9
    exact .named (by decide) (List.forall_mem_singleton.mpr (by decide))
  · have hcode : forall n, n < 32 ->
        (117 :: (hexDigits 4 n).map Char.toUInt8).all (fun b => IsNameByte b) = true := by
      decide
    have hname := hcode c.toNat (UInt8.lt_iff_toNat_lt.mp hcontrol)
    simp only [List.all_eq_true, decide_eq_true_eq] at hname
    exact .named hcontrol hname
  · exact .verbatim hcontrol hquote hbackslash

theorem not_isControl_of_mem_jsonEscape {s : List UInt8} {b : UInt8}
    (h : b ∈ jsonEscape s) : Not (IsControl b) := by
  rcases List.mem_flatMap.mp h with ⟨c, -, hb⟩
  exact (escaped_jsonEscapeByte c).not_isControl hb

theorem unescapedQuote_names {name : List UInt8} (h : forall c, c ∈ name -> IsNameByte c)
    (rest : List UInt8) :
    unescapedQuote false (name ++ rest) = unescapedQuote false rest := by
  induction name with
  | nil =>
      rfl
  | cons c name ih =>
      have hc := h c (by simp)
      have hquote : (c == quote) = false := beq_eq_false_iff_ne.mpr hc.ne_quote
      have hbackslash : (c == backslash) = false :=
        beq_eq_false_iff_ne.mpr hc.ne_backslash
      rw [List.cons_append, unescapedQuote, hquote, hbackslash]
      exact ih fun d hd => h d (by simp [hd])

theorem unescapedQuote_jsonEscape (s : List UInt8) :
    unescapedQuote false (jsonEscape s) = false := by
  induction s with
  | nil =>
      rfl
  | cons c s ih =>
      have hprinted := escaped_jsonEscapeByte c
      rw [jsonEscape_cons]
      generalize jsonEscapeByte c = printed at hprinted
      cases hprinted with
      | verbatim hcontrol hquote hbackslash =>
          have hquote' : (c == quote) = false := beq_eq_false_iff_ne.mpr hquote
          have hbackslash' : (c == backslash) = false :=
            beq_eq_false_iff_ne.mpr hbackslash
          rw [List.singleton_append, unescapedQuote, hquote', hbackslash']
          exact ih
      | marked hmark =>
          exact ih
      | named hcontrol hname =>
          rename_i first name
          have hnames := unescapedQuote_names
            (fun d hd => hname d (List.mem_cons_of_mem first hd)) (jsonEscape s)
          exact hnames.trans ih

/-!
## Characters
-/

/-- What becomes of a character whose bytes are escaped. -/
def escapedChar (c : Char) : List Char :=
  if c = '"' then ['\\', '"']
  else if c = '\\' then ['\\', '\\']
  else if c = '\n' then ['\\', 'n']
  else if c = '\r' then ['\\', 'r']
  else if c = '\t' then ['\\', 't']
  else if c.toNat < 32 then '\\' :: 'u' :: hexDigits 4 c.toNat
  else [c]

theorem jsonEscapeByte_of_le {b : UInt8} (h : 128 <= b.toNat) : jsonEscapeByte b = [b] := by
  have hne : forall c : UInt8, c.toNat < 128 -> b ≠ c := by
    rintro c hc rfl
    omega
  have hcontrol : Not (b < 0x20) := by
    rw [UInt8.lt_iff_toNat_lt]
    exact Nat.not_lt.mpr (Nat.le_trans (by decide) h)
  unfold jsonEscapeByte
  rw [if_neg (hne _ (by decide)), if_neg (hne _ (by decide)), if_neg (hne _ (by decide)),
    if_neg (hne _ (by decide)), if_neg (hne _ (by decide)), if_neg hcontrol]

theorem charText_escapedChar (c : Char) : CharText c (escapedChar c) := by
  unfold escapedChar
  split_ifs with hquote hbackslash hnewline hreturn htab hcontrol
  · subst hquote
    exact .short rfl
  · subst hbackslash
    exact .short rfl
  · subst hnewline
    exact .short rfl
  · subst hreturn
    exact .short rfl
  · subst htab
    exact .short rfl
  · have hcode : forall n, n < 32 -> (hexDigits 4 n).length = 4 ∧
        code? (hexDigits 4 n) = some n := by
      decide
    exact .code (hcode _ hcontrol).left (hcode _ hcontrol).right
  · exact .verbatim (Nat.not_lt.mp hcontrol) hquote hbackslash

theorem utf8Bytes_escapedChar (c : Char) :
    utf8Bytes (escapedChar c) = jsonEscape (String.utf8EncodeChar c) := by
  by_cases hascii : c.toNat < 128
  · have hall : forall n, n < 128 -> utf8Bytes (escapedChar (Char.ofNat n)) =
        jsonEscape (String.utf8EncodeChar (Char.ofNat n)) := by
      decide
    have hc := hall c.toNat hascii
    rwa [Char.ofNat_toNat] at hc
  · have hne : forall d : Char, d.toNat < 128 -> c ≠ d := by
      rintro d hd rfl
      exact hascii hd
    have hcontrol : Not (c.toNat < 32) := by
      omega
    have hself : escapedChar c = [c] := by
      unfold escapedChar
      rw [if_neg (hne _ (by decide)), if_neg (hne _ (by decide)), if_neg (hne _ (by decide)),
        if_neg (hne _ (by decide)), if_neg (hne _ (by decide)), if_neg hcontrol]
    have hbytes : forall b, b ∈ String.utf8EncodeChar c -> jsonEscapeByte b = [b] := by
      intro b hb
      exact jsonEscapeByte_of_le (le_of_mem_utf8EncodeChar (Nat.not_lt.mp hascii) hb)
    rw [hself, jsonEscape, List.flatMap_congr hbytes]
    simp [utf8Bytes]

theorem utf8Bytes_flatMap_escapedChar (cs : List Char) :
    utf8Bytes (cs.flatMap escapedChar) = jsonEscape (utf8Bytes cs) := by
  induction cs with
  | nil =>
      rfl
  | cons c cs ih =>
      rw [List.flatMap_cons, utf8Bytes_append, utf8Bytes_escapedChar, ih, jsonEscape,
        jsonEscape, <- List.flatMap_append]
      rfl

/-!
## Strings
-/

theorem prints_string (s : String) :
    Prints StringText s (quote :: (jsonEscape (utf8 s) ++ [quote])) := by
  have hchars : forall cs, CharsText cs (cs.flatMap escapedChar) := by
    intro cs
    induction cs with
    | nil =>
        exact .nil
    | cons c cs ih =>
        exact .cons (charText_escapedChar c) ih
  refine ⟨_, ⟨s.toList.flatMap escapedChar, hchars s.toList, rfl⟩, ?_⟩
  rw [utf8_eq, <- utf8Bytes_flatMap_escapedChar]
  exact congrArg (quote :: ·) (utf8Bytes_append _ _)

theorem prints_stringValue (P : Json -> List Char -> Prop) (s : String) :
    Prints (ValueText P) (.string s) (quote :: (jsonEscape (utf8 s) ++ [quote])) := by
  rcases prints_string s with ⟨text, htext, hbytes⟩
  exact ⟨text, .string htext, hbytes⟩

/-- A name in quotes, with nothing to escape. -/
theorem prints_name {s : String} (h : jsonEscape (utf8 s) = utf8 s) :
    Prints StringText s (quote :: (utf8 s ++ [quote])) := by
  have hprints := prints_string s
  rwa [h] at hprints

/-!
## Messages
-/

/-- `write_message`. -/
def writeMessage (m : IpcMessage) : List UInt8 :=
  utf8 "\x7b\"id\":" ++ decimal m.id.toNat ++ utf8 ",\"kind\":\"" ++ m.kind ++
    utf8 "\",\"body\":" ++
    (if m.bodyJson = [] then utf8 "\x7b\x7d" else m.bodyJson) ++ utf8 "\x7d\n"

section Bodies

variable {ι : Type} (juce : Juce ι)

/-- What `Session::scan_bundle` returns. -/
def scanBundleJson (bundle : List UInt8) : List UInt8 :=
  match juce.scanAndAddDragAndDroppedFiles bundle with
  | [] => utf8 "\x7b\"ok\":false,\"error\":\"no plugin found in bundle\"\x7d"
  | d :: _ =>
      utf8 "\x7b\"ok\":true,\"name\":\"" ++ jsonEscape (utf8 d.name) ++
        utf8 "\",\"vendor\":\"" ++ jsonEscape (utf8 d.manufacturerName) ++
        utf8 "\",\"format\":\"" ++ jsonEscape (utf8 d.pluginFormatName) ++
        utf8 "\",\"category\":\"" ++ jsonEscape (utf8 d.category) ++
        utf8 "\",\"numInputs\":" ++ decimal d.numInputChannels ++
        utf8 ",\"numOutputs\":" ++ decimal d.numOutputChannels ++
        utf8 ",\"isInstrument\":" ++ utf8 (if d.isInstrument then "true" else "false") ++
        utf8 "\x7d"

/-- What `Session::load` returns. -/
def loadJson (bundle state : List UInt8) : List UInt8 :=
  match juce.scanAndAddDragAndDroppedFiles bundle with
  | [] => utf8 "\x7b\"ok\":false,\"error\":\"plugin not found\"\x7d"
  | d :: _ =>
      match juce.createPluginInstance d with
      | .error error =>
          utf8 "\x7b\"ok\":false,\"error\":\"" ++ jsonEscape (utf8 error) ++
            utf8 "\"\x7d"
      | .ok created =>
          let restored :=
            if state = [] then created
            else juce.setStateInformation created (juce.convertFromBase64 state)
          let plugin := juce.prepareToPlay restored
          utf8 "\x7b\"ok\":true,\"numParams\":" ++ decimal (juce.numParameters plugin) ++
            utf8 "\x7d"

/-- The counts are of type `int`. -/
def Juce.CountsFit : Prop :=
  (forall bundle d, d ∈ juce.scanAndAddDragAndDroppedFiles bundle ->
    d.numInputChannels < 2 ^ 31 ∧ d.numOutputChannels < 2 ^ 31) ∧
  forall plugin, juce.numParameters plugin < 2 ^ 31

theorem prints_failure (text : String) :
    Prints (IsText 2) (failureBody text)
      (utf8 "\x7b\"ok\":false,\"error\":\"" ++ jsonEscape (utf8 text) ++ utf8 "\"\x7d") := by
  have hok := prints_field (prints_name (s := "ok") rfl) (prints_bool (IsText 0) false)
  have herror := prints_field (prints_name (s := "error") rfl)
    (prints_stringValue (IsText 0) text)
  refine (prints_object (prints_cons hok (prints_last herror))).congr ?_
  simp only [List.append_assoc, List.cons_append, List.nil_append]
  rfl

variable {juce} (hcounts : juce.CountsFit)

include hcounts

theorem prints_scanBundle (bundle : List UInt8) :
    Prints (IsText 2) (scanBundle juce bundle) (scanBundleJson juce bundle) := by
  unfold scanBundle scanBundleJson
  cases hfound : juce.scanAndAddDragAndDroppedFiles bundle with
  | nil =>
      exact (prints_failure "no plugin found in bundle").congr rfl
  | cons d rest =>
      rcases hcounts.left bundle d (by simp [hfound]) with ⟨hinputs, houtputs⟩
      have hok := prints_field (prints_name (s := "ok") rfl) (prints_bool (IsText 0) true)
      have hname := prints_field (prints_name (s := "name") rfl)
        (prints_stringValue (IsText 0) d.name)
      have hvendor := prints_field (prints_name (s := "vendor") rfl)
        (prints_stringValue (IsText 0) d.manufacturerName)
      have hformat := prints_field (prints_name (s := "format") rfl)
        (prints_stringValue (IsText 0) d.pluginFormatName)
      have hcategory := prints_field (prints_name (s := "category") rfl)
        (prints_stringValue (IsText 0) d.category)
      have hin := prints_field (prints_name (s := "numInputs") rfl)
        (prints_number (IsText 0) (hinputs.trans (by decide)))
      have hout := prints_field (prints_name (s := "numOutputs") rfl)
        (prints_number (IsText 0) (houtputs.trans (by decide)))
      have hinstrument := prints_field (prints_name (s := "isInstrument") rfl)
        (prints_bool (IsText 0) d.isInstrument)
      refine (prints_object (prints_cons hok (prints_cons hname (prints_cons hvendor
        (prints_cons hformat (prints_cons hcategory (prints_cons hin
          (prints_cons hout (prints_last hinstrument))))))))).congr ?_
      simp only [List.append_assoc, List.cons_append, List.nil_append]
      rfl

theorem prints_load (s : HostSession ι) (bundle state : List UInt8) :
    Prints (IsText 2) (s.load juce bundle state).2.2 (loadJson juce bundle state) := by
  unfold HostSession.load loadJson
  cases juce.scanAndAddDragAndDroppedFiles bundle with
  | nil =>
      exact (prints_failure "plugin not found").congr rfl
  | cons d rest =>
      cases hcreated : juce.createPluginInstance d with
      | error error =>
          simp only [hcreated]
          exact prints_failure error
      | ok created =>
          simp only [hcreated]
          generalize juce.prepareToPlay _ = plugin
          have hfits : juce.numParameters plugin < 2 ^ 64 :=
            (hcounts.right plugin).trans (by decide)
          have hok := prints_field (prints_name (s := "ok") rfl)
            (prints_bool (IsText 0) true)
          have hparams := prints_field (prints_name (s := "numParams") rfl)
            (prints_number (IsText 0) hfits)
          refine (prints_object (prints_cons hok (prints_last hparams))).congr ?_
          simp only [List.append_assoc, List.cons_append, List.nil_append]
          rfl

end Bodies

/-- An envelope around a body that is printed. -/
theorem prints_message {depth : Nat} (env : Session.Envelope Json) {bytes : List UInt8}
    (hkind : jsonEscape (utf8 env.kind) = utf8 env.kind)
    (h : Prints (IsText (depth + 1)) env.body bytes) : exists text,
      writeMessage { id := env.id, kind := utf8 env.kind, bodyJson := bytes } =
        text ++ [newline] ∧
      Prints (IsText (depth + 2)) env.toJson text := by
  have hid := prints_field (prints_name (s := "id") rfl)
    (prints_number (IsText depth) env.id.toNat_lt)
  have hkind' := prints_stringValue (IsText depth) env.kind
  rw [hkind] at hkind'
  have hkind' := prints_field (prints_name (s := "kind") rfl) hkind'
  have hbody := prints_field (prints_name (s := "body") rfl) h
  refine ⟨_, ?_, prints_object (prints_cons hid (prints_cons hkind' (prints_last hbody)))⟩
  unfold writeMessage
  simp only [h.ne_nil, if_false, List.append_assoc, List.cons_append, List.nil_append]
  rfl

/-!
## Lines read back
-/

/-- The daemon reads back the envelope that a line is the text of. -/
theorem readLoop_of_prints {fromStr : String -> Option Json} (hconforms : Conforms fromStr)
    {depth : Nat} (hdepth : depth <= 127) {env : Session.Envelope Json} {bytes : List UInt8}
    (h : Prints (IsText depth) env.toJson bytes) :
    newline ∉ bytes ∧ forall rest,
      Session.readLoop fromStr (bytes ++ newline :: rest) = some (.envelope env, rest) := by
  rcases h with ⟨text, htext, rfl⟩
  have hline : newline ∉ utf8Bytes text := by
    intro hmem
    exact absurd (le_of_mem_utf8Bytes htext.printable hmem) (by decide)
  refine ⟨hline, ?_⟩
  intro rest
  have hutf8 : utf8 (String.ofList (text ++ ['\n'])) = utf8Bytes text ++ [newline] := by
    rw [utf8_ofList, utf8Bytes_append]
    rfl
  have htrim : trim isWhitespace (text ++ ['\n']) = text := by
    rw [trim_concat text (by decide)]
    rcases htext.object_ends with ⟨middle, rfl⟩
    exact trim_of_ends (by decide) (by decide)
  have hread : fromStr (String.ofList text) = some env.toJson := by
    refine hconforms _ _ ?_
    rw [String.toList_ofList]
    exact htext.mono hdepth
  rw [Session.readLoop, Session.readLine_append hline hutf8]
  simp only [Option.bind_eq_bind, Option.bind_some, String.toList_ofList, htrim, hread,
    Session.Envelope.ofJson?_toJson]

section Replies

variable {ι : Type} (juce : Juce ι)

/-- The answers to `scan` and to `load`, as `main` writes them. -/
def scanReply (id : UInt64) (bundle : List UInt8) : List UInt8 :=
  writeMessage
    { id := id, kind := utf8 "scan_result", bodyJson := scanBundleJson juce bundle }

def loadReply (id : UInt64) (bundle state : List UInt8) : List UInt8 :=
  writeMessage
    { id := id, kind := utf8 "load_result", bodyJson := loadJson juce bundle state }

end Replies

/-- One line, which the daemon takes off the child's output as the envelope. -/
def ReadsAs (fromStr : String -> Option Json) (line : List UInt8)
    (env : Session.Envelope Json) : Prop :=
  (exists text, line = text ++ [newline] ∧ newline ∉ text) ∧
  forall rest, Session.readLoop fromStr (line ++ rest) = some (.envelope env, rest)

theorem readsAs_writeMessage {fromStr : String -> Option Json}
    (hconforms : Conforms fromStr) (env : Session.Envelope Json) {bytes : List UInt8}
    (hkind : jsonEscape (utf8 env.kind) = utf8 env.kind)
    (h : Prints (IsText 2) env.body bytes) :
    ReadsAs fromStr
      (writeMessage { id := env.id, kind := utf8 env.kind, bodyJson := bytes }) env := by
  rcases prints_message env hkind h with ⟨text, hwrite, hprints⟩
  rcases readLoop_of_prints hconforms (by decide) hprints with ⟨hline, hread⟩
  refine ⟨⟨_, hwrite, hline⟩, ?_⟩
  intro rest
  rw [hwrite, List.append_assoc]
  exact hread rest

/-- An escaped string between quotes is a string literal of the string, without
control characters or a quote that ends it early; and every reply to a `scan` or
a `load` is one line that the daemon reads as the envelope of the reply. -/
theorem host_json_escaping {ι : Type} {juce : Juce ι} (hcounts : juce.CountsFit)
    {fromStr : String -> Option Json} (hconforms : Conforms fromStr) :
    (forall s : String, exists literal : String,
      utf8 literal = quote :: (jsonEscape (utf8 s) ++ [quote]) ∧
      StringText s literal.toList ∧ fromStr literal = some (.string s)) ∧
    (forall s : String, (forall b, b ∈ jsonEscape (utf8 s) -> Not (b < 0x20)) ∧
      unescapedQuote false (jsonEscape (utf8 s)) = false) ∧
    (forall id bundle, ReadsAs fromStr (scanReply juce id bundle)
      { id := id, kind := "scan_result", body := scanBundle juce bundle }) ∧
    (forall id (s : HostSession ι) bundle state,
      ReadsAs fromStr (loadReply juce id bundle state)
        { id := id, kind := "load_result", body := (s.load juce bundle state).2.2 }) := by
  refine ⟨?_, ?_, ?_, ?_⟩
  · intro s
    rcases prints_string s with ⟨text, htext, hbytes⟩
    refine ⟨String.ofList text, by rw [utf8_ofList, hbytes], ?_, ?_⟩
    · rwa [String.toList_ofList]
    · refine hconforms _ _ ?_
      rw [String.toList_ofList]
      exact .string htext
  · intro s
    exact ⟨fun b => not_isControl_of_mem_jsonEscape, unescapedQuote_jsonEscape _⟩
  · intro id bundle
    have hkind : jsonEscape (utf8 "scan_result") = utf8 "scan_result" := rfl
    exact readsAs_writeMessage hconforms
      { id := id, kind := "scan_result", body := scanBundle juce bundle } hkind
      (prints_scanBundle hcounts bundle)
  · intro id s bundle state
    have hkind : jsonEscape (utf8 "load_result") = utf8 "load_result" := rfl
    exact readsAs_writeMessage hconforms
      { id := id, kind := "load_result", body := (s.load juce bundle state).2.2 } hkind
      (prints_load hcounts s bundle state)

/-- A framework that finds one plugin, whose name holds a quote and a newline. -/
private def onePlugin : Juce Unit where
  scanAndAddDragAndDroppedFiles _ :=
    [{ name := "12\" Organ\n"
       manufacturerName := "Orgelbau Süd"
       pluginFormatName := "VST3"
       category := "Instrument|Synth"
       numInputChannels := 0
       numOutputChannels := 2
       isInstrument := true }]
  createPluginInstance _ := .error "no \\ licence"
  convertFromBase64 text := text
  setStateInformation _ _ := ()
  prepareToPlay _ := ()
  numParameters _ := 0
  setValueNotifyingHost _ _ _ := ()
  addEvent buffer _ _ _ := buffer

theorem host_json_escaping_onePlugin :
    ReadsAs read (scanReply onePlugin 7 [])
      { id := 7, kind := "scan_result", body := scanBundle onePlugin [] } := by
  have hcounts : onePlugin.CountsFit := by
    have hparams : 0 < 2 ^ 31 := by
      decide
    refine ⟨?_, fun _ => hparams⟩
    intro bundle d hd
    rw [List.mem_singleton.mp hd]
    decide
  exact (host_json_escaping hcounts conforms_read).right.right.left 7 []

end Host
end OpenMk3
