import Mathlib.Data.UInt

/-!
# Words as bytes

Splitting 16-bit words and 24-bit counts into bytes and reading them back, in
both byte orders, with the round trips the wire formats rely on; and arithmetic
on 16-bit words that has no result where it would wrap.
-/

namespace OpenMk3
namespace Library

/-!
## Sixteen-bit words
-/

def hiByte (x : UInt16) : UInt8 := (x >>> 8).toUInt8

def loByte (x : UInt16) : UInt8 := x.toUInt8

def toBeBytes (x : UInt16) : List UInt8 := [hiByte x, loByte x]

/-- The 16-bit word with the given high and low byte. -/
def ofBeBytes (hi lo : UInt8) : UInt16 :=
  UInt16.ofNat (256 * hi.toNat + lo.toNat)

/-- The 16-bit word whose little-endian bytes are given in order. -/
def ofLeBytes (lo hi : UInt8) : UInt16 := ofBeBytes hi lo

theorem hiByte_toNat (x : UInt16) : (hiByte x).toNat = x.toNat / 256 := by
  have hx := x.toNat_lt
  simp [hiByte, Nat.shiftRight_eq_div_pow]
  omega

theorem loByte_toNat (x : UInt16) : (loByte x).toNat = x.toNat % 256 := by
  simp [loByte]

theorem ofBeBytes_toNat (hi lo : UInt8) :
    (ofBeBytes hi lo).toNat = 256 * hi.toNat + lo.toNat := by
  have hhi := hi.toNat_lt
  have hlo := lo.toNat_lt
  simp [ofBeBytes]
  omega

@[simp] theorem ofBeBytes_hiByte_loByte (x : UInt16) :
    ofBeBytes (hiByte x) (loByte x) = x := by
  apply UInt16.toNat_inj.mp
  rw [ofBeBytes_toNat, hiByte_toNat, loByte_toNat]
  omega

theorem length_flatMap_toBeBytes (words : List UInt16) :
    (words.flatMap toBeBytes).length = 2 * words.length := by
  simp [List.length_flatMap, toBeBytes, Nat.mul_comm]

theorem toUInt16_toNat {n : Nat} (h : n < 2 ^ 16) : n.toUInt16.toNat = n :=
  UInt16.toNat_ofNat_of_lt' h

/-!
## Twenty-four-bit counts
-/

theorem toUInt32_toNat {n : Nat} (h : n < 2 ^ 32) : n.toUInt32.toNat = n :=
  UInt32.toNat_ofNat_of_lt' h

/-- Big-endian bytes of the low 24 bits of a count. -/
def toBeBytes24 (n : UInt32) : List UInt8 :=
  [((n >>> 16) &&& 0xff).toUInt8, ((n >>> 8) &&& 0xff).toUInt8,
    (n &&& 0xff).toUInt8]

/-- The count with the given three bytes, most significant first. -/
def ofBeBytes24 (a b c : UInt8) : Nat :=
  65536 * a.toNat + 256 * b.toNat + c.toNat

theorem ofBeBytes24_toBeBytes24 (n : UInt32) (h : n.toNat < 2 ^ 24) :
    exists a b c, toBeBytes24 n = [a, b, c] ∧ ofBeBytes24 a b c = n.toNat := by
  refine ⟨_, _, _, rfl, ?_⟩
  have hmask : forall m : Nat, m &&& 255 = m % 256 := fun m =>
    Nat.and_two_pow_sub_one_eq_mod m 8
  simp [ofBeBytes24, Nat.shiftRight_eq_div_pow, hmask]
  omega

/-!
## Sixty-four-bit masks
-/

/-- The 64-bit mask whose little-endian bytes are given in order. -/
def ofLeBytes64 (bytes : List UInt8) : BitVec 64 :=
  bytes.foldr (fun b acc => (acc <<< 8) ||| b.toBitVec.setWidth 64) 0

/-!
## Little-endian counts
-/

/-- The `k` low bytes of a count, least significant first. -/
def leBytes : Nat -> Nat -> List UInt8
  | 0, _ => []
  | k + 1, n => UInt8.ofNat n :: leBytes k (n / 256)

/-- The count whose bytes are given, least significant first. -/
def leNat : List UInt8 -> Nat
  | [] => 0
  | b :: rest => b.toNat + 256 * leNat rest

@[simp] theorem leBytes_length (k n : Nat) : (leBytes k n).length = k := by
  induction k generalizing n with
  | zero => rfl
  | succ k ih =>
      simp [leBytes, ih]

theorem leNat_leBytes {k n : Nat} (h : n < 256 ^ k) :
    leNat (leBytes k n) = n := by
  induction k generalizing n with
  | zero =>
      simp [leBytes, leNat]
      omega
  | succ k ih =>
      have hdiv : n / 256 < 256 ^ k := by
        rw [Nat.pow_succ] at h
        exact Nat.div_lt_of_lt_mul (by omega)
      simp only [leBytes, leNat, ih hdiv, UInt8.toNat_ofNat']
      omega

theorem leNat_lt (bytes : List UInt8) : leNat bytes < 256 ^ bytes.length := by
  induction bytes with
  | nil => simp [leNat]
  | cons b rest ih =>
      have hb := b.toNat_lt
      rw [leNat, List.length_cons, Nat.pow_succ]
      omega

/-- Eight bytes make the mask of their count. -/
theorem ofLeBytes64_toNat {bytes : List UInt8} (h : bytes.length ≤ 8) :
    (ofLeBytes64 bytes).toNat = leNat bytes := by
  induction bytes with
  | nil => rfl
  | cons b rest ih =>
      have hb := b.toNat_lt
      have hlen : rest.length ≤ 7 := Nat.le_of_succ_le_succ h
      have hrest : leNat rest < 256 ^ 7 :=
        Nat.lt_of_lt_of_le (leNat_lt rest) (Nat.pow_le_pow_right (by decide) hlen)
      have hacc := ih (by omega)
      show (ofLeBytes64 rest <<< 8 ||| b.toBitVec.setWidth 64).toNat = _
      have hshift : (ofLeBytes64 rest <<< 8).toNat = leNat rest <<< 8 := by
        rw [BitVec.toNat_shiftLeft, hacc, Nat.shiftLeft_eq, Nat.mod_eq_of_lt]
        omega
      have hbyte : (b.toBitVec.setWidth 64).toNat = b.toNat := by
        rw [BitVec.toNat_setWidth, UInt8.toNat_toBitVec, Nat.mod_eq_of_lt]
        omega
      rw [BitVec.toNat_or, hshift, hbyte, <- Nat.shiftLeft_add_eq_or_of_lt (by omega),
        Nat.shiftLeft_eq, leNat]
      omega

theorem ofLeBytes64_leBytes (mask : BitVec 64) :
    ofLeBytes64 (leBytes 8 mask.toNat) = mask := by
  apply BitVec.eq_of_toNat_eq
  rw [ofLeBytes64_toNat (by rw [leBytes_length]), leNat_leBytes]
  exact mask.isLt

theorem leBytes_leNat (bytes : List UInt8) : leBytes bytes.length (leNat bytes) = bytes := by
  induction bytes with
  | nil => rfl
  | cons b rest ih =>
      have hb := b.toNat_lt
      have hdiv : (b.toNat + 256 * leNat rest) / 256 = leNat rest := by
        omega
      have hlow : UInt8.ofNat (b.toNat + 256 * leNat rest) = b := by
        apply UInt8.toNat_inj.mp
        rw [UInt8.toNat_ofNat']
        omega
      rw [leNat, List.length_cons, leBytes, hdiv, hlow, ih]

/-!
## Memory as 64-bit words
-/

/-- The first `k` words of the memory that starts with the bytes. -/
def toWords : Nat -> List UInt8 -> List UInt64
  | 0, _ => []
  | k + 1, bytes => UInt64.ofNat (leNat (bytes.take 8)) :: toWords k (bytes.drop 8)

def ofWords (words : List UInt64) : List UInt8 :=
  words.flatMap fun w => leBytes 8 w.toNat

theorem ofWords_toWords {k : Nat} {bytes : List UInt8} (h : bytes.length = 8 * k) :
    ofWords (toWords k bytes) = bytes := by
  induction k generalizing bytes with
  | zero =>
      rw [List.length_eq_zero_iff.mp h]
      rfl
  | succ k ih =>
      have htake : (bytes.take 8).length = 8 := by
        rw [List.length_take]
        omega
      have hdrop : (bytes.drop 8).length = 8 * k := by
        rw [List.length_drop]
        omega
      have hlt : leNat (bytes.take 8) < 2 ^ 64 := by
        have hbound := leNat_lt (bytes.take 8)
        rw [htake] at hbound
        exact hbound
      have hword : leBytes 8 (UInt64.ofNat (leNat (bytes.take 8))).toNat =
          bytes.take 8 := by
        have hbytes := leBytes_leNat (bytes.take 8)
        rw [htake] at hbytes
        rw [UInt64.toNat_ofNat_of_lt' hlt, hbytes]
      have hrest := ih hdrop
      unfold ofWords at hrest ⊢
      rw [toWords, List.flatMap_cons, hword, hrest, List.take_append_drop]

/-!
## Checked operations
-/

namespace Checked

/-- A cast that loses nothing. -/
def cast (n : Nat) : Option UInt16 := if n < 2 ^ 16 then some n.toUInt16 else none

def add (a b : UInt16) : Option UInt16 :=
  if a.toNat + b.toNat < 2 ^ 16 then some (a + b) else none

def sub (a b : UInt16) : Option UInt16 :=
  if b.toNat ≤ a.toNat then some (a - b) else none

def mul (a b : UInt16) : Option UInt16 :=
  if a.toNat * b.toNat < 2 ^ 16 then some (a * b) else none

end Checked

end Library
end OpenMk3
