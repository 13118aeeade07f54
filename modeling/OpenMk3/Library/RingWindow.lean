import Mathlib.Data.List.Nodup
import Mathlib.Data.Nat.ModEq
import Mathlib.Logic.Function.Basic

/-!
# Ring windows

A ring of `n` slots of which a window is held: the holders, oldest first, have
the slots from the base on, one after the other.  A holder joins behind the
window, and leaves it from the front or from the back.
-/

namespace OpenMk3
namespace Library

universe u

variable {holder : Type u}

/-- The holders have the slots `base`, `base + 1`, ... of a ring of `n`. -/
structure RingWindow (n base : Nat) (holders : List holder)
    (given : holder -> Option Nat) : Prop where
  le : holders.length ≤ n
  slots : forall (i : Nat) (c : holder), holders[i]? = some c ->
    given c = some ((base + i) % n)

namespace RingWindow

variable {n base : Nat} {holders : List holder} {given : holder -> Option Nat}

theorem offset_inj {i j : Nat} (hi : i < n) (hj : j < n)
    (h : (base + i) % n = (base + j) % n) : i = j := by
  have hij := Nat.ModEq.add_left_cancel' base h
  rwa [Nat.ModEq, Nat.mod_eq_of_lt hi, Nat.mod_eq_of_lt hj] at hij

/-- No slot is held twice. -/
theorem index_unique (h : RingWindow n base holders given) {i j : Nat}
    {c d : holder} (hi : holders[i]? = some c) (hj : holders[j]? = some d)
    (heq : given c = given d) : i = j := by
  have hil := (List.getElem?_eq_some_iff.mp hi).1
  have hjl := (List.getElem?_eq_some_iff.mp hj).1
  rw [h.slots i c hi, h.slots j d hj, Option.some.injEq] at heq
  exact offset_inj (Nat.lt_of_lt_of_le hil h.le) (Nat.lt_of_lt_of_le hjl h.le)
    heq

theorem given_inj (h : RingWindow n base holders given) {c d : holder}
    (hc : c ∈ holders) (hd : d ∈ holders) (heq : given c = given d) : c = d := by
  rcases List.getElem?_of_mem hc with ⟨i, hi⟩
  rcases List.getElem?_of_mem hd with ⟨j, hj⟩
  have hij := h.index_unique hi hj heq
  rw [hij, hj] at hi
  exact (Option.some.inj hi).symm

theorem nodup (h : RingWindow n base holders given) : holders.Nodup := by
  rw [List.nodup_iff_injective_get]
  intro i j hij
  apply Fin.ext
  exact h.index_unique (List.getElem?_eq_getElem i.isLt)
    (List.getElem?_eq_getElem j.isLt) (congrArg given hij)

/-- The slot behind the window is not held. -/
theorem given_ne_next (h : RingWindow n base holders given)
    (hlt : holders.length < n) {c : holder} (hc : c ∈ holders) :
    given c ≠ some ((base + holders.length) % n) := by
  rcases List.getElem?_of_mem hc with ⟨i, hi⟩
  have hil := (List.getElem?_eq_some_iff.mp hi).1
  rw [h.slots i c hi]
  intro heq
  have hij := offset_inj (Nat.lt_trans hil hlt) hlt (Option.some.inj heq)
  omega

theorem pop_front {c : holder}
    (h : RingWindow n base (c :: holders) given) :
    RingWindow n ((base + 1) % n) holders given where
  le := by
    have hle := h.le
    rw [List.length_cons] at hle
    omega
  slots := by
    intro i d hi
    rw [h.slots (i + 1) d hi, Nat.mod_add_mod, Nat.add_assoc, Nat.add_comm 1 i]

theorem pop_back {c : holder}
    (h : RingWindow n base (holders ++ [c]) given) :
    RingWindow n base holders given where
  le := by
    have hle := h.le
    rw [List.length_append] at hle
    omega
  slots := by
    intro i d hi
    apply h.slots
    rw [List.getElem?_append_left (List.getElem?_eq_some_iff.mp hi).1]
    exact hi

theorem given_last {c : holder}
    (h : RingWindow n base (holders ++ [c]) given) :
    given c = some ((base + holders.length) % n) := by
  apply h.slots
  rw [List.getElem?_append_right (Nat.le_refl _), Nat.sub_self]
  rfl

theorem push [DecidableEq holder] (h : RingWindow n base holders given)
    (hlt : holders.length < n) {c : holder} (hc : c ∉ holders) :
    RingWindow n base (holders ++ [c])
      (Function.update given c (some ((base + holders.length) % n))) where
  le := by
    rw [List.length_append]
    exact hlt
  slots := by
    intro i d hi
    rcases Nat.lt_or_ge i holders.length with hil | hil
    · rw [List.getElem?_append_left hil] at hi
      have hne : d ≠ c := by
        intro heq
        exact hc (heq ▸ List.mem_of_getElem? hi)
      rw [Function.update_of_ne hne]
      exact h.slots i d hi
    · rw [List.getElem?_append_right hil] at hi
      have hone := (List.getElem?_eq_some_iff.mp hi).1
      have hlast : i - holders.length = 0 := by
        rw [List.length_singleton] at hone
        omega
      rw [hlast] at hi
      cases hi
      have heq : i = holders.length := by omega
      rw [Function.update_self, heq]

end RingWindow

end Library
end OpenMk3
