import Mathlib.Data.UInt
import Mathlib.Data.List.Basic
import Mathlib.Tactic.SplitIfs

/-!
# Hexadecimal fields

Numbers in lower-case hexadecimal, padded with zeros to a least width.  The
rendering determines the number, and a number that fits has exactly the width,
so that fields of one width can be written one after the other.
-/

namespace OpenMk3
namespace Library

/-- The digits of `n`, padded on the left to `width`. -/
def hexDigits (width n : Nat) : List Char :=
  List.replicate (width - (Nat.toDigits 16 n).length) '0' ++ Nat.toDigits 16 n

def hexDigitValue (c : Char) : Nat :=
  if c.isDigit then c.toNat - 48 else c.toNat - 87

def hexValueFrom (start : Nat) (digits : List Char) : Nat :=
  digits.foldl (fun n c => 16 * n + hexDigitValue c) start

theorem hexDigitValue_digitChar {d : Nat} (h : d < 16) :
    hexDigitValue d.digitChar = d := by
  have hall : forall d : Fin 16, hexDigitValue (d.val.digitChar) = d.val := by
    decide
  exact hall ⟨d, h⟩

theorem hexValueFrom_zeros (k : Nat) :
    hexValueFrom 0 (List.replicate k '0') = 0 := by
  induction k with
  | zero =>
      rfl
  | succ k ih =>
      rw [List.replicate_succ]
      exact ih

theorem hexValueFrom_append (start : Nat) (xs ys : List Char) :
    hexValueFrom start (xs ++ ys) = hexValueFrom (hexValueFrom start xs) ys :=
  List.foldl_append

theorem hexValueFrom_toDigits (n : Nat) :
    hexValueFrom 0 (Nat.toDigits 16 n) = n := by
  induction n using Nat.strongRecOn with
  | ind n ih =>
      by_cases hsmall : n < 16
      · rw [Nat.toDigits_of_lt_base hsmall]
        exact (Nat.zero_add _).trans (hexDigitValue_digitChar hsmall)
      · rw [Nat.toDigits_of_base_le (by omega) (by omega),
          hexValueFrom_append, ih (n / 16) (by omega)]
        have hlast : hexDigitValue (n % 16).digitChar = n % 16 :=
          hexDigitValue_digitChar (by omega)
        show 16 * (n / 16) + hexDigitValue (n % 16).digitChar = n
        omega

theorem hexDigits_injective (width : Nat) :
    Function.Injective (hexDigits width) := by
  have hvalue : forall n, hexValueFrom 0 (hexDigits width n) = n := by
    intro n
    rw [hexDigits, hexValueFrom_append, hexValueFrom_zeros,
      hexValueFrom_toDigits]
  intro m n h
  rw [<- hvalue m, h, hvalue n]

theorem hexDigits_length {width n : Nat} (hwidth : 0 < width)
    (h : n < 16 ^ width) : (hexDigits width n).length = width := by
  have hle : (Nat.toDigits 16 n).length <= width :=
    (Nat.length_toDigits_le_iff (by omega) hwidth).mpr h
  rw [hexDigits, List.length_append, List.length_replicate]
  omega

/-!
## Digits of either case
-/

/-- `char::to_digit` in base 16. -/
def toDigit16 (c : Char) : Option Nat :=
  if '0' ≤ c ∧ c ≤ '9' then some (c.toNat - '0'.toNat)
  else if 'a' ≤ c ∧ c ≤ 'f' then some (c.toNat - 'a'.toNat + 10)
  else if 'A' ≤ c ∧ c ≤ 'F' then some (c.toNat - 'A'.toNat + 10)
  else none

/-- A digit is in one of three ranges. -/
theorem isSome_toDigit16 {c : Char} (h : (toDigit16 c).isSome) :
    ('0' ≤ c ∧ c ≤ '9') ∨ ('a' ≤ c ∧ c ≤ 'f') ∨ ('A' ≤ c ∧ c ≤ 'F') := by
  unfold toDigit16 at h
  split_ifs at h with hdigit hlower hupper
  · exact Or.inl hdigit
  · exact Or.inr (Or.inl hlower)
  · exact Or.inr (Or.inr hupper)
  · simp at h

theorem toDigit16_lt {c : Char} {x : Nat} (h : toDigit16 c = some x) : x < 16 := by
  have hle {a b : Char} (hab : a ≤ b) : a.toNat ≤ b.toNat :=
    UInt32.le_iff_toNat_le.mp hab
  unfold toDigit16 at h
  split_ifs at h with hdigit hlower hupper
  · have hc := hle hdigit.right
    cases h
    have hn : '9'.toNat = 57 := rfl
    have h0 : '0'.toNat = 48 := rfl
    omega
  · have hc := hle hlower.right
    cases h
    have hf : 'f'.toNat = 102 := rfl
    have ha : 'a'.toNat = 97 := rfl
    omega
  · have hc := hle hupper.right
    cases h
    have hf : 'F'.toNat = 70 := rfl
    have ha : 'A'.toNat = 65 := rfl
    omega

/-!
## Words
-/

/-- The `{:08x}` rendering of a word. -/
def hexWord (w : UInt32) : List Char := hexDigits 8 w.toNat

@[simp] theorem hexWord_length (w : UInt32) : (hexWord w).length = 8 :=
  hexDigits_length (by omega) w.toNat_lt

theorem hexWord_inj {v w : UInt32} : hexWord v = hexWord w <-> v = w := by
  constructor
  · intro h
    exact UInt32.toNat_inj.mp (hexDigits_injective 8 h)
  · intro h
    rw [h]

/-- A word at the front of a text is read off it. -/
theorem hexWord_append_inj {v w : UInt32} {xs ys : List Char} :
    hexWord v ++ xs = hexWord w ++ ys <-> v = w ∧ xs = ys := by
  constructor
  · intro h
    rcases List.append_inj h (by simp) with ⟨hword, htail⟩
    exact ⟨hexWord_inj.mp hword, htail⟩
  · intro h
    rw [h.left, h.right]

def hex (w : UInt32) : String := String.ofList (hexWord w)

theorem hex_toList (w : UInt32) : (hex w).toList = hexWord w :=
  String.toList_ofList

end Library
end OpenMk3
