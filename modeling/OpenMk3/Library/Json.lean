import Mathlib.Data.UInt
import Mathlib.Data.List.Basic
import Mathlib.Tactic.SplitIfs

/-!
# JSON values and their compact text

Values, and the text a compact serializer prints for them: no blanks, the
fields of an object in the order they are held, and strings with the short
escapes where there is one.  Texts are the bytes of their UTF-8 encoding, since
readers on the other side see bytes only.
-/

namespace OpenMk3
namespace Library

/-- The bytes of a text. -/
def utf8 (s : String) : List UInt8 := s.toUTF8.data.toList

namespace Ascii

abbrev newline : UInt8 := 10
abbrev quote : UInt8 := 34
abbrev comma : UInt8 := 44
abbrev colon : UInt8 := 58
abbrev backslash : UInt8 := 92
abbrev lbrace : UInt8 := 123
abbrev rbrace : UInt8 := 125

end Ascii

open Ascii

/-!
## Numbers
-/

def decimal (n : Nat) : List UInt8 := (Nat.toDigits 10 n).map Char.toUInt8

def isDigit (b : UInt8) : Bool := 48 <= b && b <= 57

def decimalValue (digits : List UInt8) : Nat :=
  digits.foldl (fun n b => 10 * n + (b.toNat - 48)) 0

theorem decimal_ne_nil (n : Nat) : decimal n ≠ [] := by
  unfold decimal
  simp [Nat.toDigits_ne_nil]

theorem toNat_of_isDigit {c : Char} (h : c.isDigit = true) :
    48 <= c.toNat ∧ c.toNat <= 57 := by
  simp only [Char.isDigit, Bool.and_eq_true, decide_eq_true_eq] at h
  exact ⟨UInt32.le_iff_toNat_le.mp h.1, UInt32.le_iff_toNat_le.mp h.2⟩

private theorem toNat_toUInt8 {c : Char} (h : c.isDigit = true) :
    c.toUInt8.toNat = c.toNat := by
  have hrange := toNat_of_isDigit h
  show c.toNat % 256 = c.toNat
  omega

theorem isDigit_of_mem_decimal {n : Nat} {b : UInt8} (h : b ∈ decimal n) :
    isDigit b = true := by
  rcases List.mem_map.mp h with ⟨c, hc, rfl⟩
  have hdigit := Nat.isDigit_of_mem_toDigits (by decide) (by decide) hc
  simp only [isDigit, Bool.and_eq_true, decide_eq_true_eq,
    UInt8.le_iff_toNat_le, toNat_toUInt8 hdigit]
  exact toNat_of_isDigit hdigit

theorem decimalValue_decimal (n : Nat) : decimalValue (decimal n) = n := by
  have hfold : forall (digits : List Char) (start : Nat),
      (forall c, c ∈ digits -> c.isDigit = true) ->
      (digits.map Char.toUInt8).foldl (fun n b => 10 * n + (b.toNat - 48)) start =
        Nat.ofDigitChars 10 digits start := by
    intro digits
    induction digits with
    | nil =>
        intro start _
        rfl
    | cons c rest ih =>
        intro start hdigits
        have hc := toNat_toUInt8 (hdigits c (by simp))
        rw [List.map_cons, List.foldl_cons, Nat.ofDigitChars_cons, hc]
        exact ih _ (fun d hd => hdigits d (by simp [hd]))
  have hdigits : forall c, c ∈ Nat.toDigits 10 n -> c.isDigit = true :=
    fun c hc => Nat.isDigit_of_mem_toDigits (by decide) (by decide) hc
  exact (hfold _ 0 hdigits).trans Nat.ofDigitChars_ten_toDigits

/-!
## Strings
-/

def hexDigit (b : UInt8) : UInt8 := if b < 10 then 48 + b else 87 + b

/-- How one byte of a string is printed. -/
def escapeByte (b : UInt8) : List UInt8 :=
  if b = quote then utf8 "\\\""
  else if b = backslash then utf8 "\\\\"
  else if b = 8 then utf8 "\\b"
  else if b = 9 then utf8 "\\t"
  else if b = 10 then utf8 "\\n"
  else if b = 12 then utf8 "\\f"
  else if b = 13 then utf8 "\\r"
  else if b < 32 then utf8 "\\u00" ++ [hexDigit (b / 16), hexDigit (b % 16)]
  else [b]

def escape (text : List UInt8) : List UInt8 := text.flatMap escapeByte

@[simp] theorem escape_nil : escape [] = [] := rfl

theorem escape_cons (b : UInt8) (text : List UInt8) :
    escape (b :: text) = escapeByte b ++ escape text := rfl

/-- Bytes that no string of a text may hold as they are. -/
def IsControl (b : UInt8) : Prop := b < 32

instance (b : UInt8) : Decidable (IsControl b) :=
  inferInstanceAs (Decidable (b < 32))

/-- The digits and the lower-case letters. -/
def IsNameByte (b : UInt8) : Prop := isDigit b = true ∨ 97 <= b ∧ b <= 122

instance (b : UInt8) : Decidable (IsNameByte b) :=
  inferInstanceAs (Decidable (_ ∨ _))

theorem not_isControl_of_isNameByte {b : UInt8} (h : IsNameByte b) :
    Not (IsControl b) := by
  intro hcontrol
  have hlt : b.toNat < 32 := UInt8.lt_iff_toNat_lt.mp hcontrol
  rcases h with hdigit | ⟨hletter, -⟩
  · have hge := (Bool.and_eq_true_iff.mp hdigit).1
    have hnat : 48 <= b.toNat := UInt8.le_iff_toNat_le.mp (of_decide_eq_true hge)
    omega
  · have hnat : 97 <= b.toNat := UInt8.le_iff_toNat_le.mp hletter
    omega

theorem IsNameByte.ne_quote {b : UInt8} (h : IsNameByte b) : b ≠ quote := by
  rintro rfl
  exact absurd h (by decide)

theorem IsNameByte.ne_backslash {b : UInt8} (h : IsNameByte b) : b ≠ backslash := by
  rintro rfl
  exact absurd h (by decide)

/-- The three ways a byte is printed: as it is, behind a backslash, or as a
backslash with the name of a control character. -/
inductive Escaped (b : UInt8) : List UInt8 -> Prop where
  | verbatim (hcontrol : Not (IsControl b)) (hquote : b ≠ quote)
      (hbackslash : b ≠ backslash) : Escaped b [b]
  | marked (hmark : b = quote ∨ b = backslash) : Escaped b [backslash, b]
  | named {c : UInt8} {name : List UInt8} (hcontrol : IsControl b)
      (hname : forall x, x ∈ c :: name -> IsNameByte x) :
      Escaped b (backslash :: c :: name)

/-- However a byte is printed, no control character is. -/
theorem Escaped.not_isControl {b c : UInt8} {printed : List UInt8}
    (h : Escaped b printed) (hc : c ∈ printed) : Not (IsControl c) := by
  cases h with
  | verbatim hcontrol hquote hbackslash =>
      rwa [List.mem_singleton.mp hc]
  | marked hmark =>
      rcases List.mem_pair.mp hc with rfl | rfl
      · decide
      · rcases hmark with rfl | rfl <;> decide
  | named hcontrol hname =>
      rcases List.mem_cons.mp hc with rfl | hc
      · decide
      · exact not_isControl_of_isNameByte (hname c hc)

theorem isNameByte_hexDigit {b : UInt8} (h : b < 16) :
    IsNameByte (hexDigit b) := by
  have hall : forall n, n < 16 -> IsNameByte (hexDigit (UInt8.ofNat n)) := by
    decide
  have hb := hall b.toNat (UInt8.lt_iff_toNat_lt.mp h)
  rwa [UInt8.ofNat_toNat] at hb

theorem escaped_escapeByte (b : UInt8) : Escaped b (escapeByte b) := by
  unfold escapeByte
  split_ifs with hquote hbackslash h8 h9 h10 h12 h13 hcontrol
  · subst hquote
    exact .marked (Or.inl rfl)
  · subst hbackslash
    exact .marked (Or.inr rfl)
  · subst h8
    exact .named (by decide) (List.forall_mem_singleton.mpr (by decide))
  · subst h9
    exact .named (by decide) (List.forall_mem_singleton.mpr (by decide))
  · subst h10
    exact .named (by decide) (List.forall_mem_singleton.mpr (by decide))
  · subst h12
    exact .named (by decide) (List.forall_mem_singleton.mpr (by decide))
  · subst h13
    exact .named (by decide) (List.forall_mem_singleton.mpr (by decide))
  · have hhigh : b / 16 < 16 := by grind
    have hlow : b % 16 < 16 := by grind
    show Escaped b
      (backslash :: 117 :: [48, 48, hexDigit (b / 16), hexDigit (b % 16)])
    refine .named hcontrol ?_
    simp only [List.forall_mem_cons]
    exact ⟨by decide, by decide, by decide, isNameByte_hexDigit hhigh,
      isNameByte_hexDigit hlow, by simp⟩
  · exact .verbatim hcontrol hquote hbackslash

/-!
## Values
-/

/-- A value; a number is held as it is printed. -/
inductive Json where
  | null
  | bool (b : Bool)
  | number (literal : List UInt8)
  | string (s : String)
  | array (items : List Json)
  | object (fields : List (String × Json))

namespace Json

def renderString (s : String) : List UInt8 :=
  [quote] ++ escape (utf8 s) ++ [quote]

mutual

def render : Json -> List UInt8
  | null => utf8 "null"
  | bool b => utf8 (if b then "true" else "false")
  | number literal => literal
  | string s => renderString s
  | array [] => utf8 "[]"
  | array (item :: items) => utf8 "[" ++ render item ++ renderItems items
  | object [] => utf8 "\x7b\x7d"
  | object (field :: fields) =>
      [lbrace] ++ renderField field ++ renderFields fields

def renderItems : List Json -> List UInt8
  | [] => utf8 "]"
  | item :: items => [comma] ++ render item ++ renderItems items

def renderField : String × Json -> List UInt8
  | (name, value) => renderString name ++ [colon] ++ render value

def renderFields : List (String × Json) -> List UInt8
  | [] => [rbrace]
  | field :: fields => [comma] ++ renderField field ++ renderFields fields

end

/-- The value of a field that is true or false. -/
def flag? (name : String) : Json -> Option Bool
  | object fields =>
      match fields.find? fun field => field.1 == name with
      | some (_, bool b) => some b
      | _ => none
  | _ => none

end Json

end Library
end OpenMk3
