import OpenMk3.Daemon.Uds
import OpenMk3.Library.JsonText
import OpenMk3.Library.Lines

/-!
# Framing on the socket

When the replies on a connection are one line of JSON for each request.  The
replies that the serializer writes are; a reply assembled from an error text is
when that text leaves the reader inside the string it stands in.
-/

namespace OpenMk3
namespace Daemon

open Library Ascii JsonText

/-- `Reply`, as its deserializer sees it; the 128th open object or array in the
payload is the one too many for its recursion limit. -/
def replyFormat (inRange : List UInt8 -> Bool) : Format :=
  { fields :=
      [{ name := utf8 "ok", type := .bool }, { name := utf8 "payload", type := .any }]
    depth := 127
    inRange := inRange }

/-- A JSON object that is read as a `Reply`. -/
def IsReply (inRange : List UInt8 -> Bool) (text : List UInt8) : Prop :=
  Accepts (replyFormat inRange) text

/-- Lines of JSON, each a `Reply`. -/
def Framed (inRange : List UInt8 -> Bool) (n : Nat) (out : List UInt8) : Prop :=
  exists texts, out = terminated newline texts ∧ texts.length = n ∧
    forall text, text ∈ texts -> newline ∉ text ∧ IsReply inRange text

/-- The assumption on the serializer, about a reply that the reader can hold: one
line of JSON. -/
def Serde.Writes (inRange : List UInt8 -> Bool) (serde : Serde) (reply : Reply) : Prop :=
  exists text, serde.toString reply = some text ∧ newline ∉ text ∧ IsReply inRange text

/-- Where a hand-assembled reply has its error text. -/
def insideError : State :=
  { mode := .string false .plain, stack := [.object, .object]
    name := utf8 "payload", seen := [utf8 "payload", utf8 "ok"] }

/-- The text holds no newline, and a reader that meets it inside the string of
a hand-assembled reply ends inside a string of an object at the same depth. -/
def Embeds (inRange : List UInt8 -> Bool) (e : List UInt8) : Prop :=
  newline ∉ e ∧ exists s, insideError.run (replyFormat inRange) e = some s ∧
    s.mode = .string false .plain ∧ s.stack = [.object, .object]

/-- A hand-assembled reply up to its error text. -/
def errorHead : List UInt8 :=
  utf8 "\x7b\"ok\":false,\"payload\":\x7b\"error\":\""

theorem run_errorHead (inRange : List UInt8 -> Bool) :
    JsonText.start.run (replyFormat inRange) errorHead = some insideError := by
  rfl

variable {inRange : List UInt8 -> Bool}

theorem malformed_eq (e : String) :
    malformed e =
      (errorHead ++ (utf8 e ++ [quote, rbrace, rbrace])) ++ [newline] := by
  unfold malformed
  rw [List.append_assoc, List.append_assoc, List.append_assoc]
  rfl

/-- A hand-assembled reply is one line and a reply exactly when its error text
embeds. -/
theorem malformed_isReply_iff (e : List UInt8) :
    (newline ∉ errorHead ++ (e ++ [quote, rbrace, rbrace]) ∧
      IsReply inRange (errorHead ++ (e ++ [quote, rbrace, rbrace]))) <->
        Embeds inRange e := by
  have hnewline : newline ∉ errorHead ++ (e ++ [quote, rbrace, rbrace]) <->
      newline ∉ e := by
    have hhead : newline ∉ errorHead := by
      decide
    have htail : newline ∉ [quote, rbrace, rbrace] := by
      decide
    simp only [List.mem_append, hhead, htail, false_or, or_false]
  unfold IsReply Accepts Embeds
  rw [hnewline]
  refine and_congr_right fun _ => ?_
  rw [State.run_append, run_errorHead, Option.bind_some, State.run_append]
  constructor
  · rintro ⟨s', hrun, hcomplete⟩
    rcases Option.bind_eq_some_iff.mp hrun with ⟨s, hs, hclose⟩
    rcases State.complete_after_close_iff.mp ⟨s', hclose, hcomplete⟩ with
      ⟨hmode, hstack, _⟩
    exact ⟨s, hs, hmode, hstack⟩
  · rintro ⟨s, hs, hmode, hstack⟩
    have hseen : forall field, field ∈ (replyFormat inRange).fields ->
        field.name ∈ s.seen := by
      intro field hfield
      apply State.run_seen hs
      simp only [replyFormat, List.mem_cons, List.not_mem_nil, or_false] at hfield
      rcases hfield with rfl | rfl
      · decide
      · decide
    rw [hs, Option.bind_some]
    exact State.complete_after_close_iff.mpr ⟨hmode, hstack, hseen⟩

theorem newline_not_mem_of_verbatim {text : List UInt8} (h : Verbatim text) :
    newline ∉ text := fun hmem => (h newline hmem).1 (by decide)

/-- An error text without quotes, backslashes and control characters embeds. -/
theorem embeds_of_verbatim {e : List UInt8} (h : Verbatim e) : Embeds inRange e :=
  ⟨newline_not_mem_of_verbatim h, _, State.run_verbatim rfl h, rfl, rfl⟩

/-- Text between two stretches without escapes, the second of which starts with
a grave accent, embeds exactly when it does on its own. -/
theorem embeds_between_iff {front mid back : List UInt8} (hfront : Verbatim front)
    (hback : Verbatim (96 :: back)) :
    Embeds inRange (front ++ (mid ++ 96 :: back)) <-> Embeds inRange mid := by
  have hrun : insideError.run (replyFormat inRange) (front ++ (mid ++ 96 :: back)) =
      (insideError.run (replyFormat inRange) mid).bind fun s =>
        s.run (replyFormat inRange) (96 :: back) := by
    rw [State.run_append, State.run_verbatim rfl hfront, Option.bind_some,
      State.run_append]
    rfl
  have hnewline : newline ∉ front ++ (mid ++ 96 :: back) <-> newline ∉ mid := by
    simp only [List.mem_append, newline_not_mem_of_verbatim hfront,
      newline_not_mem_of_verbatim hback, false_or, or_false]
  unfold Embeds
  rw [hnewline, hrun]
  refine and_congr_right fun _ => ?_
  constructor
  · rintro ⟨s', hs', hmode', hstack'⟩
    rcases Option.bind_eq_some_iff.mp hs' with ⟨s, hs, hmore⟩
    have hgrave : exists s1, s.step (replyFormat inRange) 96 = some s1 := by
      rw [State.run_cons] at hmore
      rcases Option.bind_eq_some_iff.mp hmore with ⟨s1, hstep, _⟩
      exact ⟨s1, hstep⟩
    rcases hgrave with ⟨s1, hstep⟩
    rcases State.step_grave hstep with ⟨isKey, hmode⟩
    rw [State.run_verbatim hmode hback] at hmore
    cases hmore
    exact ⟨s, hs, hmode', hstack'⟩
  · rintro ⟨s, hs, hmode, hstack⟩
    rw [hs, Option.bind_some, State.run_verbatim hmode hback]
    exact ⟨_, rfl, hmode, hstack⟩

/-- The error text for an operation that does not exist, found at a column. -/
def unknownVariant (op : List UInt8) (column : Nat) : List UInt8 :=
  utf8 "unknown variant `" ++ (op ++
    (utf8 "`, expected one of `status`, `scan_libraries`, `browse`, `load`" ++
      (utf8 " at line 1 column " ++ decimal column)))

/-- The reply to an unknown operation is as good as the operation's name, which
the error text repeats as it is. -/
theorem embeds_unknownVariant_iff (op : List UInt8) (column : Nat) :
    Embeds inRange (unknownVariant op column) <-> Embeds inRange op := by
  have hfront : Verbatim (utf8 "unknown variant `") := by
    decide
  have hexpected : Verbatim
      (utf8 "`, expected one of `status`, `scan_libraries`, `browse`, `load`" ++
        utf8 " at line 1 column ") := by
    decide
  have hback : Verbatim
      (utf8 "`, expected one of `status`, `scan_libraries`, `browse`, `load`" ++
        (utf8 " at line 1 column " ++ decimal column)) := by
    intro b hb
    rw [<- List.append_assoc] at hb
    rcases List.mem_append.mp hb with hb | hb
    · exact hexpected b hb
    · have hname : IsNameByte b := Or.inl (isDigit_of_mem_decimal hb)
      refine ⟨not_isControl_of_isNameByte hname, ?_, ?_⟩
      · rintro rfl
        exact absurd hname (by decide)
      · rintro rfl
        exact absurd hname (by decide)
  exact embeds_between_iff hfront hback

/-!
## Lines
-/

theorem framed_zero : Framed inRange 0 [] := ⟨[], rfl, rfl, fun _ h => nomatch h⟩

theorem framed_one_iff {out : List UInt8} :
    Framed inRange 1 out <->
      exists text, out = text ++ [newline] ∧ newline ∉ text ∧ IsReply inRange text := by
  constructor
  · rintro ⟨texts, hout, hlength, hgood⟩
    rcases List.length_eq_one_iff.mp hlength with ⟨text, rfl⟩
    rw [terminated_singleton] at hout
    exact ⟨text, hout, hgood text (by simp)⟩
  · rintro ⟨text, rfl, hgood⟩
    refine ⟨[text], (terminated_singleton _ _).symm, rfl, ?_⟩
    intro t ht
    rw [List.mem_singleton.mp ht]
    exact hgood

/-- Behind framed output, one more line is framed on its own. -/
theorem Framed.succ_iff {n : Nat} {out more : List UInt8} (h : Framed inRange n out) :
    Framed inRange (n + 1) (out ++ more) <-> Framed inRange 1 more := by
  rcases h with ⟨texts, rfl, rfl, hgood⟩
  constructor
  · rintro ⟨lines, hout, hlength, hlines⟩
    rcases rest_terminated (fun t ht => (hgood t ht).1) (fun l hl => (hlines l hl).1)
      hout with ⟨others, rfl, hmore⟩
    rw [List.length_append] at hlength
    exact ⟨others, hmore, by omega, fun t ht => hlines t (by simp [ht])⟩
  · rintro ⟨others, rfl, hlength, hothers⟩
    refine ⟨texts ++ others, (terminated_append _ _ _).symm, ?_, ?_⟩
    · rw [List.length_append, hlength]
    · intro t ht
      rcases List.mem_append.mp ht with ht | ht
      · exact hgood t ht
      · exact hothers t ht

section Connection

variable {serde : Serde} (handler : Handler)

/-- What is written for a request is one line and a reply, unless it is the
hand-assembled reply to an error text that does not embed. -/
theorem answer_framed_iff
    (hserde : forall n op,
      serde.Writes inRange ((handler n op).getD (errorReply "no reply")))
    (n : Nat) (line : String) :
    Framed inRange 1 (answer serde handler n line) <->
      forall e, serde.fromStr line = .error e -> Embeds inRange (utf8 e) := by
  unfold answer
  cases hline : serde.fromStr line with
  | error e =>
      have hmalformed : Framed inRange 1 (malformed e) <-> Embeds inRange (utf8 e) := by
        rw [framed_one_iff, malformed_eq, <- malformed_isReply_iff]
        constructor
        · rintro ⟨text, heq, hgood⟩
          rw [List.append_cancel_right heq]
          exact hgood
        · intro hgood
          exact ⟨_, rfl, hgood⟩
      simpa using hmalformed
  | ok op =>
      rcases hserde n op with ⟨text, htext, hgood⟩
      simp only [htext, Option.getD_some, reduceCtorEq, false_implies, implies_true,
        iff_true]
      exact framed_one_iff.mpr ⟨text, rfl, hgood⟩

/-- After any number of requests, one reply line for each has been written. -/
def OneLineEach (inRange : List UInt8 -> Bool) (serde : Serde) (handler : Handler)
    (lines : List String) : Prop :=
  forall n, n <= lines.length -> Framed inRange n (serve serde handler (lines.take n))

theorem oneLineEach_snoc (lines : List String) (line : String) :
    OneLineEach inRange serde handler (lines ++ [line]) <->
      OneLineEach inRange serde handler lines ∧
        Framed inRange 1 (answer serde handler lines.length line) := by
  have htake : forall n, n <= lines.length ->
      (lines ++ [line]).take n = lines.take n :=
    fun n hn => List.take_append_of_le_length hn
  have hwhole : (lines ++ [line]).take (lines.length + 1) = lines ++ [line] :=
    List.take_of_length_le (by simp)
  constructor
  · intro h
    have hfront : OneLineEach inRange serde handler lines := by
      intro n hn
      rw [<- htake n hn]
      exact h n (by simp; omega)
    refine ⟨hfront, ?_⟩
    have hlast := h (lines.length + 1) (by simp)
    have hlines := hfront lines.length (Nat.le_refl _)
    rw [List.take_length] at hlines
    rw [hwhole, serve_snoc] at hlast
    exact hlines.succ_iff.mp hlast
  · rintro ⟨hfront, hlast⟩ n hn
    by_cases hle : n <= lines.length
    · rw [htake n hle]
      exact hfront n hle
    · have hn : n = lines.length + 1 := by
        simp at hn
        omega
      have hlines := hfront lines.length (Nat.le_refl _)
      rw [List.take_length] at hlines
      rw [hn, hwhole, serve_snoc]
      exact hlines.succ_iff.mpr hlast

/-- On every connection: one line, a valid reply, for each request in order,
exactly when the error text of every malformed request embeds. -/
theorem serve_oneLineEach_iff
    (hserde : forall n op,
      serde.Writes inRange ((handler n op).getD (errorReply "no reply")))
    (lines : List String) :
    OneLineEach inRange serde handler lines <->
      forall line, line ∈ lines -> forall e, serde.fromStr line = .error e ->
        Embeds inRange (utf8 e) := by
  induction lines using List.reverseRecOn with
  | nil =>
      constructor
      · intro _ line hline
        cases hline
      · intro _ n hn
        rw [Nat.le_zero.mp hn]
        exact framed_zero
  | append_singleton lines line ih =>
      rw [oneLineEach_snoc, ih, answer_framed_iff handler hserde]
      simp only [List.mem_append, List.mem_singleton, or_imp, forall_and, forall_eq]

/-!
## A request that repeats a quote
-/

/-- The operation of the request is a single quote. -/
def quotedRequest : String := "\x7b\"op\":\"\\\"\"\x7d"

def quotedError : String :=
  "unknown variant `\"`, expected one of `status`, `scan_libraries`, " ++
    "`browse`, `load` at line 1 column 10"

/-- The operation of the request is a letter. -/
def letterRequest : String := "\x7b\"op\":\"x\"\x7d"

def letterError : String :=
  "unknown variant `x`, expected one of `status`, `scan_libraries`, " ++
    "`browse`, `load` at line 1 column 9"

/-- What `serde_json` makes of these requests, and of the reply that the handler
leaves to `serve`. -/
def quotedOp : Serde :=
  { fromStr := fun line =>
      if line = quotedRequest then .error quotedError
      else if line = letterRequest then .error letterError
      else .ok .status
    toString := fun _ =>
      some (utf8
        "\x7b\"ok\":false,\"payload\":\x7b\"error\":\"no reply\"\x7d\x7d") }

theorem quotedOp_writes (reply : Reply) : quotedOp.Writes inRange reply := by
  have hverbatim : Verbatim (utf8 "no reply") := by
    decide
  exact ⟨_, rfl, (malformed_isReply_iff _).mpr (embeds_of_verbatim hverbatim)⟩

/-- Numbers of at most 300 bytes without an exponent, all of them finite. -/
def shortNumber (text : List UInt8) : Bool :=
  text.all (fun b => b != 101 && b != 69) && text.length ≤ 300

/-- The quote ends the error string early. -/
theorem quotedOp_not_oneLineEach :
    Not (OneLineEach shortNumber quotedOp (fun _ _ => none) [quotedRequest]) := by
  have hparse : quotedOp.fromStr quotedRequest = .error quotedError := by
    simp [quotedOp]
  intro h
  have hframed := ((oneLineEach_snoc (fun _ _ => none) [] _).mp h).2
  have hembeds :=
    (answer_framed_iff _ (fun _ _ => quotedOp_writes _) _ _).mp hframed _ hparse
  have hquote : Embeds shortNumber (unknownVariant [quote] 10) := hembeds
  rcases (embeds_unknownVariant_iff [quote] 10).mp hquote with ⟨_, s, hs, hmode, _⟩
  cases hs
  cases hmode

theorem serve_oneLineEach_iff_quotedOp :
    OneLineEach shortNumber quotedOp (fun _ _ => none)
      [letterRequest, "\x7b\"op\":\"status\"\x7d"] := by
  have hverbatim : Verbatim (utf8 letterError) := by
    decide
  apply (serve_oneLineEach_iff _ (fun _ _ => quotedOp_writes _) _).mpr
  intro line hline e he
  simp only [List.mem_cons, List.not_mem_nil, or_false] at hline
  rcases hline with rfl | rfl
  · cases he
    exact embeds_of_verbatim hverbatim
  · cases he

end Connection

end Daemon
end OpenMk3
