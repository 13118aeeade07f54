import Mathlib.Algebra.Group.Nat.Defs
import Mathlib.Data.List.TakeWhile
import OpenMk3.Host.Scanner
import OpenMk3.Session.Wire

/-!
# Requests read back

A request as the plugin host reads it.  The id and the kind always come back,
and the body as far as brace counting lets it; the two strings of a load
request come back without the escapes.
-/

namespace OpenMk3
namespace Host

open Library Ascii Session

/-!
## The line and its fields
-/

theorem newline_not_mem_escape (text : List UInt8) : newline ∉ escape text := by
  intro hmem
  rcases List.mem_flatMap.mp hmem with ⟨b, -, hb⟩
  exact (escaped_escapeByte b).not_isControl hb (by decide)

theorem getline_append {line : List UInt8} (h : newline ∉ line)
    (rest : List UInt8) :
    getline (line ++ [newline] ++ rest) = some (line, rest) := by
  unfold getline
  rw [if_neg (by simp), List.append_assoc, List.singleton_append,
    takeWhile_append_mark h, dropWhile_append_mark h]
  rfl

theorem decimal_ne {c : UInt8} (h : isDigit c = false) (n : Nat) :
    forall b, b ∈ decimal n -> c ≠ b := by
  rintro b hb rfl
  rw [isDigit_of_mem_decimal hb] at h
  cases h

theorem isspace_of_isDigit {b : UInt8} (h : isDigit b = true) :
    isspace b = false := by
  rcases Bool.and_eq_true_iff.mp h with ⟨hge, -⟩
  have hnat : 48 <= b.toNat := UInt8.le_iff_toNat_le.mp (of_decide_eq_true hge)
  have h32 : b ≠ 32 := by
    rintro rfl
    exact absurd hnat (by decide)
  have h13 : Not (b <= 13) := by
    intro hle
    have : b.toNat <= 13 := UInt8.le_iff_toNat_le.mp hle
    omega
  simp [isspace, h32, h13]

/-- Digits alone are read as their number while that fits. -/
theorem stoull_of_isDigit {digits : List UInt8} (hne : digits ≠ [])
    (h : forall b, b ∈ digits -> isDigit b = true)
    (hfits : decimalValue digits < 2 ^ 64) :
    stoull digits = some (UInt64.ofNat (decimalValue digits)) := by
  cases digits with
  | nil =>
      exact absurd rfl hne
  | cons d digits =>
      have hd := h d (by simp)
      have hminus : d ≠ 45 := by
        rintro rfl
        exact absurd hd (by decide)
      have hplus : d ≠ 43 := by
        rintro rfl
        exact absurd hd (by decide)
      have hspace : (d :: digits).dropWhile isspace = d :: digits := by
        rw [List.dropWhile_cons, isspace_of_isDigit hd]
        rfl
      have htake : (d :: digits).takeWhile isDigit = d :: digits :=
        List.takeWhile_eq_self_iff.mpr h
      simpa [stoull, hspace, hminus, hplus, htake] using hfits

theorem stoull_decimal (id : UInt64) : stoull (decimal id.toNat) = some id := by
  have hvalue := decimalValue_decimal id.toNat
  rw [stoull_of_isDigit (decimal_ne_nil _) (fun b => isDigit_of_mem_decimal)
    (by rw [hvalue]; exact id.toNat_lt), hvalue, UInt64.ofNat_toNat]

/-!
## The message
-/

theorem findField_of_clearOf {key : String} {front : List UInt8}
    (h : clearOf (quoted key) front = true) (text : List UInt8) :
    findField (front ++ (quoted key ++ (colon :: text))) key =
      some (fieldValue text) := by
  have hcolon : after [colon] (colon :: text) = some text :=
    after_append_self [colon] text
  unfold findField
  rw [after_append_of_clearOf h, after_append_self]
  simp [hcolon]

theorem fieldValue_decimal (n : Nat) (text : List UInt8) :
    fieldValue (decimal n ++ comma :: text) = decimal n := by
  have hdigits : forall b, b ∈ decimal n -> isDigit b = true :=
    fun b => isDigit_of_mem_decimal
  have hbare : bareValue (decimal n ++ comma :: text) = decimal n := by
    unfold bareValue
    rw [List.takeWhile_append_of_pos]
    · simp
    · intro b hb
      simp [(decimal_ne (c := comma) rfl n b hb).symm,
        (decimal_ne (c := rbrace) rfl n b hb).symm]
  cases hn : decimal n with
  | nil =>
      exact absurd hn (decimal_ne_nil n)
  | cons d digits =>
      rw [hn] at hdigits hbare
      have hd := hdigits d (by simp)
      have hquote : d ≠ quote := by
        rintro rfl
        exact absurd hd (by decide)
      have hlbrace : d ≠ lbrace := by
        rintro rfl
        exact absurd hd (by decide)
      simp only [List.cons_append] at hbare ⊢
      simp [fieldValue, isspace_of_isDigit hd, hquote, hlbrace, hbare]

theorem clearOf_decimal (key : String) (n : Nat) :
    clearOf (quoted key) (decimal n) = true :=
  clearOf_of_forall_ne (decimal_ne (by decide) n)

section Fields

variable (id : UInt64) (kind : String) (text : List UInt8)

/-- The line of a request up to its body. -/
def requestLine : List UInt8 :=
  utf8 "\x7b\"id\":" ++ (decimal id.toNat ++
    (utf8 ",\"kind\":\"" ++ (utf8 kind ++ (utf8 "\",\"body\":\x7b" ++ text))))

/-- A kind that the scanner takes whole and does not take for a key. -/
structure IsVerb (kind : String) : Prop where
  clear : clearOf (quoted "body") (utf8 ",\"kind\":\"" ++ utf8 kind ++ utf8 "\",") = true
  value : forall rest, quotedValue (utf8 kind ++ quote :: rest) = utf8 kind ++ [quote]
  line : newline ∉ utf8 kind

theorem findField_requestLine_id :
    findField (requestLine id kind text) "id" = some (decimal id.toNat) := by
  have hclear : clearOf (quoted "id") [lbrace] = true := by
    decide
  have h := findField_of_clearOf hclear
    (decimal id.toNat ++ (utf8 ",\"kind\":\"" ++ (utf8 kind ++
      (utf8 "\",\"body\":\x7b" ++ text))))
  exact h.trans (congrArg some (fieldValue_decimal _ _))

theorem findField_requestLine_kind (hkind : IsVerb kind) :
    findField (requestLine id kind text) "kind" =
      some (quote :: (utf8 kind ++ [quote])) := by
  have hclear : clearOf (quoted "kind")
      (utf8 "\x7b\"id\":" ++ (decimal id.toNat ++ [comma])) = true :=
    clearOf_append (by decide) (clearOf_append (clearOf_decimal _ _) (by decide))
  have h := findField_of_clearOf hclear
    (quote :: (utf8 kind ++ quote :: (utf8 ",\"body\":\x7b" ++ text)))
  have hvalue : fieldValue (quote :: (utf8 kind ++ quote ::
      (utf8 ",\"body\":\x7b" ++ text))) = quote :: (utf8 kind ++ [quote]) :=
    congrArg (quote :: ·) (hkind.value _)
  rw [hvalue] at h
  simp only [List.append_assoc] at h
  exact h

theorem findField_requestLine_body (hkind : IsVerb kind) :
    findField (requestLine id kind text) "body" =
      some (lbrace :: bracedValue 1 text) := by
  have hclear : clearOf (quoted "body")
      (utf8 "\x7b\"id\":" ++ (decimal id.toNat ++
        (utf8 ",\"kind\":\"" ++ utf8 kind ++ utf8 "\","))) = true :=
    clearOf_append (by decide) (clearOf_append (clearOf_decimal _ _) hkind.clear)
  have h := findField_of_clearOf hclear (lbrace :: text)
  simp only [List.append_assoc] at h
  exact h

theorem unquote_quoted (s : List UInt8) : unquote (quote :: (s ++ [quote])) = s := by
  have hlast : (quote :: (s ++ [quote])).getLast? = some quote := by
    rw [← List.cons_append]
    exact List.getLast?_concat
  simp [unquote, hlast]

theorem readMessage_requestLine (hkind : IsVerb kind) (htext : newline ∉ text)
    (rest : List UInt8) :
    readMessage (requestLine id kind text ++ [newline] ++ rest) =
      ({ id := id
         kind := utf8 kind
         bodyJson := lbrace :: bracedValue 1 text }, rest) := by
  have hnewline : newline ∉ requestLine id kind text := by
    unfold requestLine
    simp only [List.mem_append]
    rintro (h | h | h | h | h | h)
    · revert h
      decide
    · exact decimal_ne (c := newline) rfl _ _ h rfl
    · revert h
      decide
    · exact hkind.line h
    · revert h
      decide
    · exact htext h
  unfold readMessage
  rw [getline_append hnewline]
  simp only [findField_requestLine_id, findField_requestLine_kind _ _ _ hkind,
    findField_requestLine_body _ _ _ hkind, Option.bind_some, stoull_decimal,
    Option.map_some, Option.getD_some, unquote_quoted]

end Fields

/-!
## Load requests
-/

section Load

variable (bundle state : List UInt8)

/-- A load body behind its opening brace, to the end of the line. -/
def loadText : List UInt8 :=
  utf8 "\"bundle\":\"" ++ (escape bundle ++ (utf8 "\",\"state_base64\":\"" ++
    (escape state ++ utf8 "\"\x7d\x7d")))

/-- The body the scanner cuts out of the line. -/
def cutBody : List UInt8 := lbrace :: bracedValue 1 (loadText bundle state)

/-- What is cut out of the line behind a printed string: nothing once the scan
has stopped, the closing quote first otherwise. -/
theorem bracedValue_quote (depth : Nat) (text : List UInt8) :
    bracedValue depth (quote :: text) =
      if depth = 0 then [] else quote :: bracedValue depth text := rfl

theorem readChars_bracedValue_quote (depth : Nat) (text : List UInt8) :
    readChars (bracedValue depth (quote :: text)) = [] := by
  rw [bracedValue_quote]
  by_cases h : depth = 0
  · rw [if_pos h]
    rfl
  · rw [if_neg h]
    exact readChars_quote _

theorem cutBody_eq :
    cutBody bundle state =
      utf8 "\x7b\"bundle\":\"" ++ (escape (bracedValue 1 bundle) ++
        bracedValue (depthAfter 1 bundle)
          (utf8 "\",\"state_base64\":\"" ++ (escape state ++ utf8 "\"\x7d\x7d"))) := by
  have hfield : forall rest, bracedValue 1 (utf8 "\"bundle\":\"" ++ rest) =
      utf8 "\"bundle\":\"" ++ bracedValue 1 rest := fun _ => rfl
  unfold cutBody loadText
  rw [hfield, bracedValue_append, bracedValue_escape, depthAfter_escape]
  rfl

theorem readString_bundle :
    readString (cutBody bundle state) "bundle" =
      (bracedValue 1 bundle).flatMap reread := by
  have hafter : forall rest, after (quoted "bundle" ++ [colon, quote])
      (utf8 "\x7b\"bundle\":\"" ++ rest) = some rest := by
    intro rest
    have hclear : clearOf (quoted "bundle" ++ [colon, quote]) [lbrace] = true := by
      decide
    exact (after_append_of_clearOf hclear _).trans (after_append_self _ rest)
  unfold readString
  rw [cutBody_eq, hafter]
  show readChars (_ ++ bracedValue _ (quote :: _)) = _
  rw [readChars_escape, readChars_bracedValue_quote, List.append_nil]

theorem readString_state :
    readString (cutBody bundle state) "state_base64" =
      (bracedValue (depthAfter 1 bundle) state).flatMap reread := by
  have hkey : IsKey (utf8 "state_base64") := by
    decide
  have hclear : clearOf (quoted "state_base64" ++ [colon, quote])
      ((utf8 "\x7b\"bundle\":\"" ++ escape (bracedValue 1 bundle)) ++
        [quote, comma]) = true := by
    rw [List.append_assoc]
    have hfront : clearOf (quoted "state_base64" ++ [colon, quote])
        (utf8 "\x7b\"bundle\":") = true := by
      decide
    have hstring := clearOf_quote_escape hkey [quote] (bracedValue 1 bundle)
    exact (clearOf_append hfront hstring :)
  unfold readString
  rw [cutBody_eq, <- List.append_assoc]
  by_cases hdepth : depthAfter 1 bundle = 0
  · rw [hdepth, bracedValue_zero, bracedValue_zero, List.append_nil,
      after_eq_none_of_clearOf_append (by decide) hclear]
    rfl
  · have hfield : forall rest, bracedValue (depthAfter 1 bundle)
        (utf8 "\",\"state_base64\":\"" ++ rest) =
          [quote, comma] ++ ((quoted "state_base64" ++ [colon, quote]) ++
            bracedValue (depthAfter 1 bundle) rest) := by
      intro rest
      have hbraceless : Braceless (utf8 "\",\"state_base64\":\"") := by
        decide
      rw [bracedValue_append, bracedValue_of_braceless hbraceless hdepth,
        depthAfter_of_braceless hbraceless]
      rfl
    rw [hfield, <- List.append_assoc, after_append_of_clearOf hclear,
      after_append_self, bracedValue_append, bracedValue_escape]
    show readChars (_ ++ bracedValue _ (quote :: _)) = _
    rw [readChars_escape, readChars_bracedValue_quote, List.append_nil]

end Load

theorem newline_not_mem_loadText (bundle state : List UInt8) :
    newline ∉ loadText bundle state := by
  unfold loadText
  simp only [List.mem_append, newline_not_mem_escape, false_or]
  decide

theorem isVerb_load : IsVerb "load" where
  clear := by decide
  value rest := by cases rest <;> rfl
  line := by decide

theorem line_loadRequest (id : UInt64) (bundle state : String) :
    (SessionManager.loadRequest id bundle state).line =
      requestLine id "load" (loadText (utf8 bundle) (utf8 state)) ++ [newline] := by
  simp only [Envelope.line, Envelope.toJson, SessionManager.loadRequest,
    SessionManager.loadBody, Json.render, Json.renderField, Json.renderFields,
    Json.renderString, requestLine, loadText, List.append_assoc]
  rfl

/-- The message a load request is read as, whatever its strings. -/
theorem readMessage_loadRequest (id : UInt64) (bundle state : String)
    (rest : List UInt8) :
    readMessage ((SessionManager.loadRequest id bundle state).line ++ rest) =
      ({ id := id
         kind := utf8 "load"
         bodyJson := cutBody (utf8 bundle) (utf8 state) }, rest) := by
  rw [line_loadRequest, readMessage_requestLine _ _ _ isVerb_load
    (newline_not_mem_loadText _ _)]
  rfl

/-!
## Fidelity
-/

theorem append_eq_append_iff_of_prefix {xs ys xs' ys' : List UInt8}
    (hx : xs <+: xs') (hy : ys <+: ys') :
    xs ++ ys = xs' ++ ys' <-> xs = xs' ∧ ys = ys' := by
  constructor
  · intro h
    have hlength := congrArg List.length h
    simp only [List.length_append] at hlength
    have hxle := hx.length_le
    have hyle := hy.length_le
    exact ⟨hx.eq_of_length (by omega), hy.eq_of_length (by omega)⟩
  · rintro ⟨rfl, rfl⟩
    rfl

/-- A load request comes back from the pipe as what it was. -/
def ReadBack (id : UInt64) (bundle state : String) (rest : List UInt8) : Prop :=
  exists msg,
    readMessage ((SessionManager.loadRequest id bundle state).line ++ rest) =
      (msg, rest) ∧
    msg.id = id ∧ msg.kind = utf8 "load" ∧
    readString msg.bodyJson "bundle" = utf8 bundle ∧
    readString msg.bodyJson "state_base64" = utf8 state

/-- Requests are read back as they were sent exactly when the bundle path and
the state, one behind the other, hold no control character and close no brace
before their end that they have not opened. -/
theorem readBack_iff (id : UInt64) (bundle state : String) (rest : List UInt8) :
    ReadBack id bundle state rest <->
      (forall b, b ∈ utf8 bundle ++ utf8 state -> Not (IsControl b)) ∧
      forall front back, utf8 bundle ++ utf8 state = front ++ back ->
        back ≠ [] -> front.count rbrace <= front.count lbrace := by
  have hcut := bracedValue_append 1 (utf8 bundle) (utf8 state)
  have hbraces := bracedValue_eq_self_iff 0 (utf8 bundle ++ utf8 state)
  simp only [Nat.zero_add] at hbraces
  rw [<- hbraces]
  have hread : ReadBack id bundle state rest <->
      (bracedValue 1 (utf8 bundle)).flatMap reread = utf8 bundle ∧
      (bracedValue (depthAfter 1 (utf8 bundle)) (utf8 state)).flatMap reread =
        utf8 state := by
    unfold ReadBack
    rw [readMessage_loadRequest]
    constructor
    · rintro ⟨msg, heq, -, -, hbundle, hstate⟩
      injection heq with hmsg
      subst hmsg
      rw [readString_bundle] at hbundle
      rw [readString_state] at hstate
      exact ⟨hbundle, hstate⟩
    · rintro ⟨hbundle, hstate⟩
      refine ⟨_, rfl, rfl, rfl, ?_, ?_⟩
      · rw [readString_bundle]
        exact hbundle
      · rw [readString_state]
        exact hstate
  have hbundle := bracedValue_prefix 1 (utf8 bundle)
  have hstate := bracedValue_prefix (depthAfter 1 (utf8 bundle)) (utf8 state)
  rw [hread, flatMap_reread_eq_iff hbundle, flatMap_reread_eq_iff hstate, hcut,
    append_eq_append_iff_of_prefix hbundle hstate]
  simp only [List.mem_append, or_imp, forall_and]
  constructor
  · rintro ⟨⟨hb, hbcontrol⟩, hs, hscontrol⟩
    exact ⟨⟨hbcontrol, hscontrol⟩, hb, hs⟩
  · rintro ⟨⟨hbcontrol, hscontrol⟩, hb, hs⟩
    exact ⟨⟨hb, hbcontrol⟩, hs, hscontrol⟩

/-- A closing brace in the path cuts the body: the path comes back short. -/
theorem bracedPath_not_readBack : Not (ReadBack 1 "a\x7db" "" []) := by
  rintro ⟨msg, hmsg, -, -, hbundle, -⟩
  have hread : (readMessage ((SessionManager.loadRequest 1 "a\x7db" "").line ++ [])).1 =
      msg := congrArg Prod.fst hmsg
  rw [<- hread] at hbundle
  revert hbundle
  decide

end Host
end OpenMk3
