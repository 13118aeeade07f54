import Mathlib.Data.List.Basic

/-!
# Reading at a position

A content with the position of the next read, as an open file is seen by its
reader: exact reads, and seeks, which may go past the end.  Everything a reader
can still see is the rest of the content, so the laws are about the rest.
-/

namespace OpenMk3
namespace Library

universe u

variable {α : Type u}

structure Cursor (α : Type u) where
  content : List α
  pos : Nat
deriving DecidableEq, Repr

namespace Cursor

def start (content : List α) : Cursor α := { content := content, pos := 0 }

/-- What lies after the position; nothing past the end. -/
def rest (c : Cursor α) : List α := c.content.drop c.pos

def seekBy (n : Nat) (c : Cursor α) : Cursor α := { c with pos := c.pos + n }

/-- The next `n` elements, or `none` when the content ends before them. -/
def readExact (n : Nat) (c : Cursor α) : Option (List α × Cursor α) :=
  if n <= c.rest.length then some (c.rest.take n, c.seekBy n) else none

@[simp] theorem rest_start (content : List α) :
    (start content).rest = content := rfl

@[simp] theorem seekBy_pos (n : Nat) (c : Cursor α) :
    (c.seekBy n).pos = c.pos + n := rfl

@[simp] theorem seekBy_content (n : Nat) (c : Cursor α) :
    (c.seekBy n).content = c.content := rfl

@[simp] theorem rest_seekBy (n : Nat) (c : Cursor α) :
    (c.seekBy n).rest = c.rest.drop n := by
  unfold rest seekBy
  rw [List.drop_drop]

theorem seekBy_seekBy (m n : Nat) (c : Cursor α) :
    (c.seekBy m).seekBy n = c.seekBy (m + n) := by
  simp [seekBy, Nat.add_assoc]

@[simp] theorem seekBy_zero (c : Cursor α) : c.seekBy 0 = c := rfl

theorem readExact_eq_some_iff {n : Nat} {c c' : Cursor α} {xs : List α} :
    c.readExact n = some (xs, c') <->
      n <= c.rest.length ∧ xs = c.rest.take n ∧ c' = c.seekBy n := by
  unfold readExact
  split
  · rename_i hn
    simp [hn, eq_comm]
  · rename_i hn
    simp [hn]

theorem readExact_eq_none_iff {n : Nat} {c : Cursor α} :
    c.readExact n = none <-> c.rest.length < n := by
  unfold readExact
  split
  · simp only [reduceCtorEq, false_iff]
    omega
  · simp only [true_iff]
    omega

/-- A reader that faces `xs` and asks for as many elements gets them. -/
theorem readExact_append {c : Cursor α} {xs ys : List α}
    (h : c.rest = xs ++ ys) :
    c.readExact xs.length = some (xs, c.seekBy xs.length) := by
  apply readExact_eq_some_iff.mpr
  rw [h]
  exact ⟨by simp, List.take_left.symm, rfl⟩

end Cursor

end Library
end OpenMk3
