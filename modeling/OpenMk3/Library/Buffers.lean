import Mathlib.Data.List.Basic

/-!
# Byte buffers

Slices, resizing and writes through a borrowed buffer.  A writer either fails
or returns a value, and in both cases leaves a buffer behind, so that what a
failed write did to its buffer stays visible.  Operations that panic on bad
arguments return `none` there.  Tables are vectors read at a bounded index.
-/

namespace OpenMk3
namespace Library

universe u

variable {item ε α β : Type u}

/-- Unsigned subtraction; `none` on underflow. -/
def sub? (a b : Nat) : Option Nat := if b ≤ a then some (a - b) else none

/-- The sub-slice `lo..hi`; `none` when it is out of range. -/
def slice? (xs : List item) (lo hi : Nat) : Option (List item) :=
  if lo ≤ hi ∧ hi ≤ xs.length then some ((xs.drop lo).take (hi - lo)) else none

/-- Truncate to `n` items or extend to `n` items with `v`. -/
def resize (xs : List item) (n : Nat) (v : item) : List item :=
  xs.take n ++ List.replicate (n - xs.length) v

/-- Overwrite the items from position `lo` on with those of `src`. -/
def copyAt (xs : List item) (lo : Nat) (src : List item) : List item :=
  xs.take lo ++ src ++ xs.drop (lo + src.length)

/-- Overwrite the item at `i`; `none` when it is out of range. -/
def put? (xs : List item) (i : Nat) (v : item) : Option (List item) :=
  if i < xs.length then some (xs.set i v) else none

/-- Overwrite the sub-slice `lo..hi` with `src`; `none` when it is out of range
or of another length. -/
def copySlice? (xs : List item) (lo hi : Nat) (src : List item) :
    Option (List item) :=
  if lo ≤ hi ∧ hi ≤ xs.length ∧ src.length = hi - lo then some (copyAt xs lo src)
  else none

theorem sub?_of_le {a b : Nat} (h : b ≤ a) : sub? a b = some (a - b) := by
  rw [sub?, if_pos h]

theorem slice?_of_le {xs : List item} {lo hi : Nat} (hlo : lo ≤ hi)
    (hhi : hi ≤ xs.length) :
    slice? xs lo hi = some ((xs.drop lo).take (hi - lo)) := by
  rw [slice?, if_pos ⟨hlo, hhi⟩]

theorem resize_length_add (xs : List item) (k : Nat) (v : item) :
    resize xs (xs.length + k) v = xs ++ List.replicate k v := by
  rw [resize, List.take_of_length_le (Nat.le_add_right _ _),
    Nat.add_sub_cancel_left]

theorem copyAt_zero (xs src : List item) :
    copyAt xs 0 src = src ++ xs.drop src.length := by
  simp [copyAt]

theorem put?_append (front back : List item) (x v : item) :
    put? (front ++ x :: back) front.length v = some (front ++ v :: back) := by
  rw [put?, if_pos (by simp), List.set_append_right _ _ (Nat.le_refl _),
    Nat.sub_self, List.set_cons_zero]

theorem copySlice?_append (front back : List item) {src : List item}
    (h : src.length ≤ back.length) :
    copySlice? (front ++ back) front.length (front.length + src.length) src =
      some (front ++ src ++ back.drop src.length) := by
  have hfits : front.length + src.length ≤ (front ++ back).length := by
    rw [List.length_append]
    omega
  rw [copySlice?, if_pos ⟨Nat.le_add_right _ _, hfits, by omega⟩, copyAt,
    List.take_left' rfl, List.drop_append, List.drop_of_length_le (by omega),
    Nat.add_sub_cancel_left, List.nil_append]

/-- A loop whose every round appends bytes of its own appends them all. -/
theorem foldlM_append_eq_some {index : Type u}
    (round : List item -> index -> Option (List item))
    (bytes : index -> List item) (indices : List index)
    (hround : forall a, a ∈ indices -> forall out,
      round out a = some (out ++ bytes a))
    (out : List item) :
    indices.foldlM round out = some (out ++ indices.flatMap bytes) := by
  induction indices generalizing out with
  | nil => simp
  | cons a rest ih =>
      rw [List.foldlM_cons, hround a List.mem_cons_self out]
      have hrest := ih (fun b hb => hround b (List.mem_cons_of_mem a hb))
        (out ++ bytes a)
      simpa [List.append_assoc] using hrest

/-!
## Chunks
-/

/-- The chunks of `size` items from the front on; a shorter rest is left out. -/
def wholeChunks (size : Nat) (xs : List item) : List (List item) :=
  if _h : 0 < size ∧ size ≤ xs.length then
    xs.take size :: wholeChunks size (xs.drop size)
  else []
termination_by xs.length
decreasing_by
  rw [List.length_drop]
  omega

theorem wholeChunks_of_lt {size : Nat} {xs : List item} (h : xs.length < size) :
    wholeChunks size xs = [] := by
  rw [wholeChunks, dif_neg]
  omega

theorem wholeChunks_append {size : Nat} (hsize : 0 < size) {chunk : List item}
    (hchunk : chunk.length = size) (xs : List item) :
    wholeChunks size (chunk ++ xs) = chunk :: wholeChunks size xs := by
  rw [wholeChunks, dif_pos ⟨hsize, by rw [List.length_append]; omega⟩,
    List.take_left' hchunk, List.drop_left' hchunk]

/-!
## Tables
-/

@[simp] theorem get_set_self {size : Nat} (table : Vector item size)
    (i : Fin size) (v : item) : (table.set i.val v i.isLt).get i = v :=
  Vector.getElem_set_self i.isLt

theorem get_set_of_ne {size : Nat} (table : Vector item size) {i j : Fin size}
    (h : i ≠ j) (v : item) : (table.set i.val v i.isLt).get j = table.get j :=
  Vector.getElem_set_ne i.isLt j.isLt fun hval => h (Fin.ext hval)

/-!
## Writers
-/

/-- A fallible write through a borrowed buffer. -/
abbrev Writer (ε item α : Type u) : Type u :=
  List item -> Except ε α × List item

namespace Writer

/-- Continue with the returned value, or stop with the error. -/
def andThen (w : Writer ε item α) (next : α -> Writer ε item β) :
    Writer ε item β := fun out =>
  match w out with
  | (.error e, out') => (.error e, out')
  | (.ok a, out') => next a out'

/-- Run a writer on the part of the buffer from `off` on. -/
def onSuffix (off : Nat) (w : Writer ε item α) : Writer ε item α := fun out =>
  let written := w (out.drop off)
  (written.1, out.take off ++ written.2)

/-- The value and buffer of a write that must succeed; `none` on an error. -/
def unwrap : Except ε α × List item -> Option (α × List item)
  | (.ok a, out) => some (a, out)
  | (.error _, _) => none

theorem andThen_ok {w : Writer ε item α} {next : α -> Writer ε item β}
    {out out' : List item} {a : α} (h : w out = (.ok a, out')) :
    andThen w next out = next a out' := by
  rw [andThen, h]

theorem onSuffix_append {w : Writer ε item α} {front back back' : List item}
    {off : Nat} {r : Except ε α} (hoff : front.length = off)
    (h : w back = (r, back')) :
    onSuffix off w (front ++ back) = (r, front ++ back') := by
  subst hoff
  simp [onSuffix, h]

end Writer

end Library
end OpenMk3
