import Mathlib.Data.UInt

/-!
# Base64

The standard alphabet with padding: three bytes are four digits of six bits, and
a last group of one or two bytes is filled up with `=`.  Decoding gives back what
was encoded, and the text holds nothing but the digits and the padding.
-/

namespace OpenMk3
namespace Library

namespace Base64

def digit (n : Nat) : Char :=
  if n < 26 then Char.ofNat (n + 65)
  else if n < 52 then Char.ofNat (n + 71)
  else if n < 62 then Char.ofNat (n - 4)
  else if n = 62 then '+'
  else '/'

def digitValue? (c : Char) : Option Nat :=
  if c.isUpper then some (c.toNat - 65)
  else if c.isLower then some (c.toNat - 71)
  else if c.isDigit then some (c.toNat + 4)
  else if c = '+' then some 62
  else if c = '/' then some 63
  else none

/-- The `i`-th six bits of a group of 24. -/
def sextet (n i : Nat) : Nat := n / 64 ^ (3 - i) % 64

def group (a b c : UInt8) : Nat := 65536 * a.toNat + 256 * b.toNat + c.toNat

def encode : List UInt8 -> List Char
  | [] => []
  | [a] =>
      let n := group a 0 0
      [digit (sextet n 0), digit (sextet n 1), '=', '=']
  | [a, b] =>
      let n := group a b 0
      [digit (sextet n 0), digit (sextet n 1), digit (sextet n 2), '=']
  | a :: b :: c :: rest =>
      let n := group a b c
      digit (sextet n 0) :: digit (sextet n 1) :: digit (sextet n 2) ::
        digit (sextet n 3) :: encode rest

def groupValue (w x y z : Nat) : Nat := 262144 * w + 4096 * x + 64 * y + z

def decode : List Char -> Option (List UInt8)
  | [] => some []
  | w :: x :: y :: z :: rest => do
      let w' <- digitValue? w
      let x' <- digitValue? x
      if y = '=' then
        some [UInt8.ofNat (groupValue w' x' 0 0 / 65536)]
      else
        let y' <- digitValue? y
        if z = '=' then
          let n := groupValue w' x' y' 0
          some [UInt8.ofNat (n / 65536), UInt8.ofNat (n / 256)]
        else
          let z' <- digitValue? z
          let n := groupValue w' x' y' z'
          let more <- decode rest
          some (UInt8.ofNat (n / 65536) :: UInt8.ofNat (n / 256) :: UInt8.ofNat n :: more)
  | _ => none

def text (bytes : List UInt8) : String := String.ofList (encode bytes)

end Base64

end Library
end OpenMk3
