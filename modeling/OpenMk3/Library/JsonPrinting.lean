import OpenMk3.Library.JsonReader

/-!
# JSON texts from bytes

A program that puts a text together from bytes prints a text of the grammar when
its pieces are: the bytes of strings, numbers and truth values, with the commas,
colons and brackets between them.
-/

namespace OpenMk3
namespace Library
namespace JsonReader

open Ascii

/-!
## Bytes of texts
-/

theorem utf8_ofList (cs : List Char) : utf8 (String.ofList cs) = utf8Bytes cs := by
  unfold utf8
  rw [String.toUTF8_eq_toByteArray, String.toByteArray_ofList]
  simp [List.utf8Encode, utf8Bytes]

theorem utf8_eq (s : String) : utf8 s = utf8Bytes s.toList := by
  rw [<- utf8_ofList, String.ofList_toList]

theorem le_of_mem_utf8Bytes {text : List Char} (h : Printable text) {b : UInt8}
    (hb : b ∈ utf8Bytes text) : 32 <= b.toNat := by
  rcases List.mem_flatMap.mp hb with ⟨c, hc, hb⟩
  by_cases hascii : c.toNat < 128
  · have hone : c.val.toNat <= 0x7f := Nat.le_of_lt_succ hascii
    have hsingle : String.utf8EncodeChar c = [UInt8.ofNat c.toNat] := if_pos hone
    rw [hsingle, List.mem_singleton] at hb
    rw [hb, UInt8.toNat_ofNat', Nat.mod_eq_of_lt (by omega)]
    exact h c hc
  · have hge := le_of_mem_utf8EncodeChar (Nat.not_lt.mp hascii) hb
    omega

/-!
## What bytes print
-/

/-- The bytes are those of a text of the value. -/
def Prints {α : Type} (P : α -> List Char -> Prop) (a : α) (bytes : List UInt8) : Prop :=
  exists text, P a text ∧ utf8Bytes text = bytes

theorem Prints.ne_nil {depth : Nat} {v : Json} {bytes : List UInt8}
    (h : Prints (IsText depth) v bytes) : bytes ≠ [] := by
  rcases h with ⟨text, htext, rfl⟩
  rw [<- List.length_pos_iff, utf8Bytes_length]
  cases text with
  | nil =>
      exact absurd rfl htext.ne_nil
  | cons c cs =>
      have hpos := c.utf8Size_pos
      rw [byteLength_cons]
      omega

theorem Prints.congr {α : Type} {P : α -> List Char -> Prop} {a : α}
    {bytes bytes' : List UInt8} (h : Prints P a bytes) (heq : bytes = bytes') :
    Prints P a bytes' := by
  rwa [<- heq]

theorem prints_bool (P : Json -> List Char -> Prop) (b : Bool) :
    Prints (ValueText P) (.bool b) (utf8 (if b then "true" else "false")) := by
  cases b with
  | true =>
      exact ⟨_, .true, rfl⟩
  | false =>
      exact ⟨_, .false, rfl⟩

theorem prints_number (P : Json -> List Char -> Prop) {n : Nat} (h : n < 2 ^ 64) :
    Prints (ValueText P) (.number (decimal n)) (decimal n) := by
  refine ⟨_, .number h, ?_⟩
  have hdigit : forall c, c ∈ Nat.toDigits 10 n ->
      String.utf8EncodeChar c = [c.toUInt8] := by
    intro c hc
    have hrange := toNat_of_isDigit (isDigit_of_mem_toDigits hc)
    have hascii : c.val.toNat <= 0x7f := hrange.right.trans (by decide)
    exact if_pos hascii
  rw [utf8Bytes, List.flatMap_congr hdigit, decimal, List.map_eq_flatMap]

section Items

variable {α : Type} {P : α -> List Char -> Prop} {close : Char}

theorem prints_last {a : α} {bytes : List UInt8} (h : Prints P a bytes) :
    Prints (Items P close) [a] (bytes ++ utf8Bytes [close]) := by
  rcases h with ⟨text, htext, rfl⟩
  exact ⟨_, .last htext, utf8Bytes_append _ _⟩

theorem prints_cons {a : α} {items : List α} {bytes rest : List UInt8}
    (h : Prints P a bytes) (hitems : Prints (Items P close) items rest) :
    Prints (Items P close) (a :: items) (bytes ++ comma :: rest) := by
  rcases h with ⟨text, htext, rfl⟩
  rcases hitems with ⟨texts, htexts, rfl⟩
  exact ⟨_, .cons htext htexts, utf8Bytes_append _ _⟩

end Items

section Fields

variable {P : Json -> List Char -> Prop}

theorem prints_field {name : String} {v : Json} {nameBytes bytes : List UInt8}
    (hname : Prints StringText name nameBytes) (h : Prints P v bytes) :
    Prints (FieldText P) (name, v) (nameBytes ++ colon :: bytes) := by
  rcases hname with ⟨nameText, hnameText, rfl⟩
  rcases h with ⟨text, htext, rfl⟩
  exact ⟨_, ⟨nameText, text, hnameText, htext, rfl⟩, utf8Bytes_append _ _⟩

theorem prints_object {fields : List (String × Json)} {bytes : List UInt8}
    (h : Prints (Items (FieldText P) '\x7d') fields bytes) :
    Prints (ValueText P) (.object fields) (lbrace :: bytes) := by
  rcases h with ⟨text, htext, rfl⟩
  exact ⟨_, .object (.items htext), rfl⟩

end Fields

end JsonReader
end Library
end OpenMk3
