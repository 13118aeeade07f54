import OpenMk3.Library.Json

/-!
# Reading JSON text byte by byte

A deterministic reader for the text of one struct: a JSON object in which each
of the struct's fields occurs once, with other fields ignored.  The reader's
state is the stack of open objects and arrays, where in a token it stands, the
field of the struct it is in, and the fields it has seen.  In the fields of the
struct the depth of the text and the size of its numbers are bounded.
-/

namespace OpenMk3
namespace Library
namespace JsonText

open Ascii

inductive FieldType where
  | bool
  | any
deriving DecidableEq

structure Field where
  name : List UInt8
  type : FieldType

/-- The struct, and what the reader can hold of a field's value: how many objects
and arrays may be open at once, and which numbers are in range. -/
structure Format where
  fields : List Field
  depth : Nat
  inRange : List UInt8 -> Bool

inductive Frame where
  | object
  | array
deriving DecidableEq

/-- Where in a string the reader stands: behind whole characters, in an escape,
or between the two escapes of a surrogate pair. -/
inductive Chars where
  | plain
  | escape
  | hex (left code : Nat) (second : Bool)
  | high
  | highEscape
deriving DecidableEq

inductive NumberPhase where
  | minus
  | zero
  | digits
  | point
  | fraction
  | exponent
  | sign
  | power
deriving DecidableEq

inductive Word where
  | true
  | false
  | null
deriving DecidableEq

inductive Mode where
  | start
  | value
  | valueOrEnd
  | key
  | keyOrEnd
  | colon
  | afterValue
  | string (isKey : Bool) (chars : Chars)
  | literal (word : Word) (read : Nat)
  | number (phase : NumberPhase) (text : List UInt8)
deriving DecidableEq

structure State where
  mode : Mode
  stack : List Frame
  name : List UInt8
  seen : List (List UInt8)
deriving DecidableEq

/-!
## Tokens
-/

def isBlank (b : UInt8) : Bool := b == 32 || b == 9 || b == 10 || b == 13

def hexValue? (b : UInt8) : Option Nat :=
  if isDigit b then some (b.toNat - 48)
  else if 97 <= b && b <= 102 then some (b.toNat - 87)
  else if 65 <= b && b <= 70 then some (b.toNat - 55)
  else none

/-- The byte of an escaped character; 255, which no text holds, stands for every
character outside ASCII. -/
def decoded (code : Nat) : UInt8 := if code < 128 then UInt8.ofNat code else 255

/-- One byte of a string other than its closing quote, and the bytes it
contributes.  A strict reader pairs surrogates. -/
def Chars.step (strict : Bool) : Chars -> UInt8 -> Option (Chars × List UInt8)
  | plain, b =>
      if b = backslash then some (escape, [])
      else if IsControl b then none
      else some (plain, [b])
  | escape, b =>
      if b = quote ∨ b = backslash ∨ b = 47 then some (plain, [b])
      else if b = 98 then some (plain, [8])
      else if b = 102 then some (plain, [12])
      else if b = 110 then some (plain, [10])
      else if b = 114 then some (plain, [13])
      else if b = 116 then some (plain, [9])
      else if b = 117 then some (hex 3 0 false, [])
      else none
  | hex left code second, b =>
      match hexValue? b with
      | none => none
      | some v =>
          let code := 16 * code + v
          if left > 0 then some (hex (left - 1) code second, [])
          else if strict = false then some (plain, [decoded code])
          else if second = true then
            if 0xdc00 <= code && code < 0xe000 then some (plain, [255]) else none
          else if 0xd800 <= code && code < 0xdc00 then some (high, [])
          else if 0xdc00 <= code && code < 0xe000 then none
          else some (plain, [decoded code])
  | high, b => if b = backslash then some (highEscape, []) else none
  | highEscape, b => if b = 117 then some (hex 3 0 true, []) else none

def Word.text : Word -> List UInt8
  | .true => utf8 "true"
  | .false => utf8 "false"
  | .null => utf8 "null"

def NumberPhase.step : NumberPhase -> UInt8 -> Option NumberPhase
  | minus, b =>
      if b = 48 then some zero else if isDigit b then some digits else none
  | zero, b =>
      if b = 46 then some point
      else if b = 101 ∨ b = 69 then some exponent
      else none
  | digits, b =>
      if isDigit b then some digits
      else if b = 46 then some point
      else if b = 101 ∨ b = 69 then some exponent
      else none
  | point, b => if isDigit b then some fraction else none
  | fraction, b =>
      if isDigit b then some fraction
      else if b = 101 ∨ b = 69 then some exponent
      else none
  | exponent, b =>
      if b = 43 ∨ b = 45 then some sign
      else if isDigit b then some power
      else none
  | sign, b => if isDigit b then some power else none
  | power, b => if isDigit b then some power else none

/-- Whether a number may end here. -/
def NumberPhase.complete : NumberPhase -> Bool
  | zero => true
  | digits => true
  | fraction => true
  | power => true
  | _ => false

/-!
## Structure
-/

namespace State

variable (format : Format) (s : State)

/-- The reader is directly inside the struct. -/
def atTop : Bool := s.stack.length == 1

def inField : Bool := format.fields.any fun field => field.name == s.name

/-- A value outside the fields of the struct is skipped, however deep it is. -/
def push (frame : Frame) : Option State :=
  if s.inField format && format.depth <= s.stack.length then none
  else
    match frame with
    | .object => some { s with mode := .keyOrEnd, stack := .object :: s.stack }
    | .array => some { s with mode := .valueOrEnd, stack := .array :: s.stack }

def close (frame : Frame) : Option State :=
  match s.stack with
  | [] => none
  | top :: rest =>
      if top = frame then some { s with mode := .afterValue, stack := rest }
      else none

def startBool (b : UInt8) : Option State :=
  if b = 116 then some { s with mode := .literal .true 1 }
  else if b = 102 then some { s with mode := .literal .false 1 }
  else none

/-- The first byte of a value. -/
def startValue (b : UInt8) : Option State :=
  if s.atTop &&
      format.fields.any (fun field => field.name == s.name && field.type == .bool)
  then s.startBool b
  else if b = quote then some { s with mode := .string false .plain }
  else if b = lbrace then s.push format .object
  else if b = 91 then s.push format .array
  else if b = 110 then some { s with mode := .literal .null 1 }
  else if b = 45 then some { s with mode := .number .minus [b] }
  else if b = 48 then some { s with mode := .number .zero [b] }
  else if isDigit b then some { s with mode := .number .digits [b] }
  else s.startBool b

def startKey : State :=
  { s with
    mode := .string true .plain
    name := if s.atTop then [] else s.name }

/-- The closing quote of a key; a field of the struct occurs once. -/
def endKey : Option State :=
  if s.atTop && s.inField format then
    if s.name ∈ s.seen then none
    else some { s with mode := .colon, seen := s.name :: s.seen }
  else some { s with mode := .colon }

def afterValue (b : UInt8) : Option State :=
  if isBlank b then some { s with mode := .afterValue }
  else if b = comma then
    match s.stack with
    | [] => none
    | .object :: _ => some { s with mode := .key }
    | .array :: _ => some { s with mode := .value }
  else if b = rbrace then s.close .object
  else if b = 93 then s.close .array
  else none

/-- A byte of a string.  Texts outside the fields of the struct are skipped,
not decoded. -/
def inString (isKey : Bool) (chars : Chars) (b : UInt8) : Option State :=
  let own := isKey && s.atTop
  (chars.step (own || s.inField format) b).map fun (chars, out) =>
    { s with
      mode := .string isKey chars
      name := if own then s.name ++ out else s.name }

def step (b : UInt8) : Option State :=
  match s.mode with
  | .start =>
      if isBlank b then some s
      else if b = lbrace then s.push format .object
      else none
  | .value => if isBlank b then some s else s.startValue format b
  | .valueOrEnd =>
      if isBlank b then some s
      else if b = 93 then s.close .array
      else s.startValue format b
  | .key =>
      if isBlank b then some s
      else if b = quote then some s.startKey
      else none
  | .keyOrEnd =>
      if isBlank b then some s
      else if b = rbrace then s.close .object
      else if b = quote then some s.startKey
      else none
  | .colon =>
      if isBlank b then some s
      else if b = colon then some { s with mode := .value }
      else none
  | .afterValue => s.afterValue b
  | .string isKey chars =>
      if chars = .plain ∧ b = quote then
        if isKey then s.endKey format else some { s with mode := .afterValue }
      else s.inString format isKey chars b
  | .literal word read =>
      if word.text[read]? = some b then
        if read + 1 = word.text.length then some { s with mode := .afterValue }
        else some { s with mode := .literal word (read + 1) }
      else none
  | .number phase text =>
      match phase.step b with
      | some phase => some { s with mode := .number phase (text ++ [b]) }
      | none =>
          if phase.complete && (!s.inField format || format.inRange text) then
            s.afterValue b
          else none

def run (text : List UInt8) : Option State := text.foldlM (step format) s

/-- The struct has been read whole. -/
def Complete : Prop :=
  s.mode = .afterValue ∧ s.stack = [] ∧
    forall field, field ∈ format.fields -> field.name ∈ s.seen

end State

def start : State := { mode := .start, stack := [], name := [], seen := [] }

/-- A text that is read as the struct. -/
def Accepts (format : Format) (text : List UInt8) : Prop :=
  exists s, start.run format text = some s ∧ s.Complete format

/-!
## Runs
-/

/-- Bytes that a string may hold without an escape. -/
def Verbatim (text : List UInt8) : Prop :=
  forall b, b ∈ text -> Not (IsControl b) ∧ b ≠ quote ∧ b ≠ backslash

instance (text : List UInt8) : Decidable (Verbatim text) :=
  List.decidableBAll _ text

namespace State

variable {format : Format} {s : State}

theorem run_append (xs ys : List UInt8) :
    s.run format (xs ++ ys) =
      (s.run format xs).bind fun s' => s'.run format ys := by
  unfold run
  exact List.foldlM_append

theorem run_cons (b : UInt8) (text : List UInt8) :
    s.run format (b :: text) =
      (s.step format b).bind fun s' => s'.run format text := rfl

/-- The reader behind some text of a string: a key of the struct is kept. -/
def behind (isKey : Bool) (text : List UInt8) : State :=
  { s with name := if isKey && s.atTop then s.name ++ text else s.name }

theorem behind_append (isKey : Bool) (xs ys : List UInt8) :
    (s.behind isKey xs).behind isKey ys = s.behind isKey (xs ++ ys) := by
  unfold behind
  by_cases h : (isKey && s.atTop) = true
  · have h' : (isKey && State.atTop { s with name := s.name ++ xs }) = true := h
    simp [h, h']
  · have h' : Not ((isKey && State.atTop { s with name := s.name }) = true) := h
    simp [h]

/-- Text that needs no escape keeps the reader inside its string. -/
theorem run_verbatim {isKey : Bool} (hmode : s.mode = .string isKey .plain)
    {text : List UInt8} (h : Verbatim text) :
    s.run format text = some (s.behind isKey text) := by
  induction text generalizing s with
  | nil =>
      simp [run, behind]
  | cons b text ih =>
      rcases h b (by simp) with ⟨hcontrol, hquote, hbackslash⟩
      have hstep : s.step format b = some (s.behind isKey [b]) := by
        cases s with
        | mk mode stack name seen =>
            subst hmode
            simp [step, inString, Chars.step, behind, hcontrol, hquote, hbackslash]
      have hrest := ih (s := s.behind isKey [b]) hmode
        (fun c hc => h c (by simp [hc]))
      rw [run_cons, hstep, Option.bind_some, hrest, behind_append]
      rfl

theorem inString_mode {isKey : Bool} {chars : Chars} {b : UInt8} {s' : State}
    (h : s.inString format isKey chars b = some s') :
    exists chars', s'.mode = .string isKey chars' := by
  rcases Option.map_eq_some_iff.mp h with ⟨result, _, rfl⟩
  exact ⟨_, rfl⟩

/-- Closing braces inside a string do not end it. -/
theorem string_not_complete {isKey : Bool} {chars : Chars}
    (hmode : s.mode = .string isKey chars) (n : Nat) {s' : State}
    (h : s.run format (List.replicate n rbrace) = some s') :
    Not (s'.Complete format) := by
  induction n generalizing s chars with
  | zero =>
      cases h
      rintro ⟨hafter, _, _⟩
      rw [hmode] at hafter
      cases hafter
  | succ n ih =>
      rw [List.replicate_succ, run_cons] at h
      rcases Option.bind_eq_some_iff.mp h with ⟨s1, hstep, hrest⟩
      have hinside : s.inString format isKey chars rbrace = some s1 := by
        have hne : Not (chars = .plain ∧ rbrace = quote) :=
          fun hquote => absurd hquote.2 (by decide)
        simpa only [step, hmode, if_neg hne] using hstep
      rcases inString_mode hinside with ⟨chars', hmode'⟩
      exact ih hmode' hrest

theorem startValue_quote {s' : State} (h : s.startValue format quote = some s') :
    s'.mode = .string false .plain := by
  unfold startValue at h
  split at h
  · cases h
  · cases h
    rfl

theorem endKey_mode {s' : State} (h : s.endKey format = some s') :
    s'.mode = .colon := by
  unfold endKey at h
  split_ifs at h <;> cases h <;> rfl

/-- A literal holds the bytes of its word alone. -/
theorem step_literal_eq_none {word : Word} {read : Nat} {b : UInt8}
    (hmode : s.mode = .literal word read) (hb : b ∉ word.text) :
    s.step format b = none := by
  have hne : Not (word.text[read]? = some b) :=
    fun hread => hb (List.mem_of_getElem? hread)
  simp only [step, hmode, if_neg hne]

theorem step_number_eq_none {phase : NumberPhase} {text : List UInt8} {b : UInt8}
    (hmode : s.mode = .number phase text) (hphase : phase.step b = none)
    (hend : s.afterValue b = none) : s.step format b = none := by
  simp only [step, hmode, hphase, hend, ite_self]

/-- Where a quote leads that does not end a string value. -/
theorem step_quote {s' : State} (h : s.step format quote = some s') :
    (exists isKey chars, s'.mode = .string isKey chars) ∨ s'.mode = .colon ∨
      s.mode = .string false .plain ∧ s' = { s with mode := .afterValue } := by
  have hblank : isBlank quote = false := rfl
  cases hmode : s.mode with
  | start | colon | afterValue =>
      simp only [step, hmode, afterValue, hblank] at h
      cases h
  | value | valueOrEnd =>
      simp only [step, hmode, hblank] at h
      exact Or.inl ⟨_, _, startValue_quote h⟩
  | key | keyOrEnd =>
      simp only [step, hmode, hblank] at h
      cases h
      exact Or.inl ⟨_, _, rfl⟩
  | string isKey chars =>
      simp only [step, hmode] at h
      by_cases hplain : chars = .plain
      · rw [if_pos ⟨hplain, trivial⟩] at h
        subst hplain
        cases isKey with
        | true =>
            exact Or.inr (Or.inl (endKey_mode h))
        | false =>
            cases h
            exact Or.inr (Or.inr ⟨rfl, rfl⟩)
      · rw [if_neg (fun hquote => hplain hquote.1)] at h
        rcases inString_mode h with ⟨chars', hstring⟩
        exact Or.inl ⟨_, _, hstring⟩
  | literal word read =>
      have hword : quote ∉ word.text := by
        cases word <;> decide
      cases (step_literal_eq_none hmode hword).symm.trans h
  | number phase =>
      have hphase : phase.step quote = none := by
        cases phase <;> rfl
      cases (step_number_eq_none hmode hphase rfl).symm.trans h

/-- A grave accent only ever stands in a string. -/
theorem step_grave {s' : State} (h : s.step format 96 = some s') :
    exists isKey, s.mode = .string isKey .plain := by
  have hend : s.afterValue 96 = none := rfl
  have hblank : isBlank 96 = false := rfl
  have hvalue : s.startValue format 96 = none := by
    unfold startValue
    split <;> rfl
  cases hmode : s.mode with
  | start | key | keyOrEnd | colon | afterValue =>
      simp only [step, hmode, hend, hblank] at h
      cases h
  | value | valueOrEnd =>
      simp only [step, hmode, hvalue, hblank] at h
      cases h
  | string isKey chars =>
      cases chars with
      | plain =>
          exact ⟨isKey, rfl⟩
      | _ =>
          simp only [step, hmode, inString, Chars.step] at h
          cases h
  | literal word read =>
      have hword : 96 ∉ word.text := by
        cases word <;> decide
      cases (step_literal_eq_none hmode hword).symm.trans h
  | number phase =>
      have hphase : phase.step 96 = none := by
        cases phase <;> rfl
      cases (step_number_eq_none hmode hphase hend).symm.trans h

theorem close_eq_some_iff {frame : Frame} {s' : State} :
    s.close frame = some s' <->
      exists rest, s.stack = frame :: rest ∧
        s' = { s with mode := .afterValue, stack := rest } := by
  unfold close
  cases s.stack with
  | nil =>
      simp
  | cons top rest =>
      by_cases h : top = frame
      · simp [h, eq_comm]
      · simp [h]

theorem step_rbrace (hmode : s.mode = .afterValue) :
    s.step format rbrace = s.close .object := by
  simp only [step, hmode]
  rfl

/-- A quote and two closing braces end the struct exactly when the reader is in
a string, the value of a field of an object directly inside the struct. -/
theorem complete_after_close_iff :
    (exists s', s.run format [quote, rbrace, rbrace] = some s' ∧
        s'.Complete format) <->
      s.mode = .string false .plain ∧ s.stack = [.object, .object] ∧
        forall field, field ∈ format.fields -> field.name ∈ s.seen := by
  constructor
  · rintro ⟨s', hrun, hcomplete⟩
    rw [run_cons] at hrun
    rcases Option.bind_eq_some_iff.mp hrun with ⟨s1, hquote, hbraces⟩
    rcases step_quote hquote with ⟨isKey, chars, hstring⟩ | hcolon | ⟨hmode, rfl⟩
    · exact absurd hcomplete (string_not_complete hstring 2 hbraces)
    · have hnone : s1.step format rbrace = none := by
        simp only [step, hcolon]
        rfl
      rw [run_cons, hnone] at hbraces
      cases hbraces
    · rw [run_cons, step_rbrace rfl] at hbraces
      rcases Option.bind_eq_some_iff.mp hbraces with ⟨s2, hfirst, hlast⟩
      rcases close_eq_some_iff.mp hfirst with ⟨rest, hstack, rfl⟩
      rw [run_cons, step_rbrace rfl] at hlast
      rcases Option.bind_eq_some_iff.mp hlast with ⟨s3, hsecond, hend⟩
      rcases close_eq_some_iff.mp hsecond with ⟨rest', hstack', rfl⟩
      cases hend
      rcases hcomplete with ⟨_, hempty, hseen⟩
      simp only at hstack hstack' hempty
      refine ⟨hmode, ?_, hseen⟩
      rw [hstack, hstack', hempty]
  · rintro ⟨hmode, hstack, hseen⟩
    refine ⟨{ s with mode := .afterValue, stack := [] }, ?_, rfl, rfl, hseen⟩
    have hquote : s.step format quote = some { s with mode := .afterValue } := by
      simp only [step, hmode]
      rfl
    have hfirst : ({ s with mode := .afterValue } : State).close .object =
        some { s with mode := .afterValue, stack := [.object] } :=
      close_eq_some_iff.mpr ⟨_, hstack, rfl⟩
    rw [run_cons, hquote, Option.bind_some, run_cons, step_rbrace rfl, hfirst]
    rfl

/-!
## Fields seen
-/

theorem close_seen {frame : Frame} {s' : State} (h : s.close frame = some s') :
    s'.seen = s.seen := by
  rcases close_eq_some_iff.mp h with ⟨rest, _, rfl⟩
  rfl

theorem afterValue_seen {b : UInt8} {s' : State} (h : s.afterValue b = some s') :
    s'.seen = s.seen := by
  unfold afterValue at h
  split_ifs at h with hblank hcomma hrbrace hrbracket
  · cases h
    rfl
  · split at h <;> cases h <;> rfl
  · exact close_seen h
  · exact close_seen h

theorem startBool_seen {b : UInt8} {s' : State} (h : s.startBool b = some s') :
    s'.seen = s.seen := by
  unfold startBool at h
  split_ifs at h <;> cases h <;> rfl

theorem push_seen {frame : Frame} {s' : State} (h : s.push format frame = some s') :
    s'.seen = s.seen := by
  unfold push at h
  split at h
  · cases h
  · cases frame <;> cases h <;> rfl

theorem startValue_seen {b : UInt8} {s' : State}
    (h : s.startValue format b = some s') : s'.seen = s.seen := by
  unfold startValue at h
  split_ifs at h
  all_goals first
    | exact startBool_seen h
    | exact push_seen h
    | cases h
      rfl

theorem endKey_seen {s' : State} (h : s.endKey format = some s') :
    s.seen ⊆ s'.seen := by
  unfold endKey at h
  split_ifs at h
  · cases h
    exact List.subset_cons_self _ _
  · cases h
    exact List.Subset.refl _

theorem inString_seen {isKey : Bool} {chars : Chars} {b : UInt8} {s' : State}
    (h : s.inString format isKey chars b = some s') : s'.seen = s.seen := by
  rcases Option.map_eq_some_iff.mp h with ⟨result, _, rfl⟩
  rfl

/-- A field that has been seen stays seen. -/
theorem step_seen {b : UInt8} {s' : State} (h : s.step format b = some s') :
    s.seen ⊆ s'.seen := by
  have hsame : s'.seen = s.seen -> s.seen ⊆ s'.seen :=
    fun heq => heq ▸ List.Subset.refl _
  cases hmode : s.mode with
  | start =>
      simp only [step, hmode] at h
      split_ifs at h
      · cases h
        exact List.Subset.refl _
      · exact hsame (push_seen h)
  | key | colon =>
      simp only [step, hmode] at h
      split_ifs at h <;> cases h <;> exact List.Subset.refl _
  | value =>
      simp only [step, hmode] at h
      split_ifs at h
      · cases h
        exact List.Subset.refl _
      · exact hsame (startValue_seen h)
  | valueOrEnd =>
      simp only [step, hmode] at h
      split_ifs at h
      · cases h
        exact List.Subset.refl _
      · exact hsame (close_seen h)
      · exact hsame (startValue_seen h)
  | keyOrEnd =>
      simp only [step, hmode] at h
      split_ifs at h
      · cases h
        exact List.Subset.refl _
      · exact hsame (close_seen h)
      · cases h
        exact List.Subset.refl _
  | afterValue =>
      simp only [step, hmode] at h
      exact hsame (afterValue_seen h)
  | string isKey chars =>
      simp only [step, hmode] at h
      split_ifs at h
      · exact endKey_seen h
      · cases h
        exact List.Subset.refl _
      · exact hsame (inString_seen h)
  | literal word read =>
      simp only [step, hmode] at h
      split_ifs at h <;> cases h <;> exact List.Subset.refl _
  | number phase =>
      simp only [step, hmode] at h
      cases hphase : phase.step b with
      | some phase' =>
          simp only [hphase] at h
          cases h
          exact List.Subset.refl _
      | none =>
          simp only [hphase] at h
          split_ifs at h
          exact hsame (afterValue_seen h)

theorem run_seen {text : List UInt8} {s' : State}
    (h : s.run format text = some s') : s.seen ⊆ s'.seen := by
  induction text generalizing s with
  | nil =>
      cases h
      exact List.Subset.refl _
  | cons b text ih =>
      rw [run_cons] at h
      rcases Option.bind_eq_some_iff.mp h with ⟨s1, hstep, hrest⟩
      exact List.Subset.trans (step_seen hstep) (ih hrest)

end State

end JsonText
end Library
end OpenMk3
