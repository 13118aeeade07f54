import Mathlib.Data.List.Basic

/-!
# Sequences of attempts

Steps performed in order until one is refused.  Every attempted step leaves its
effect on the state, the refused one included, and the sequence reports the
first refusal.
-/

namespace OpenMk3
namespace Library
namespace Attempts

universe u v w

variable {step : Type u} {state : Type v} {error : Type w}

/-- Perform the steps until the first refusal. -/
def perform (f : state -> step -> state × Option error) :
    state -> List step -> state × Option error
  | s, [] => (s, none)
  | s, x :: rest =>
      match f s x with
      | (s', some e) => (s', some e)
      | (s', none) => perform f s' rest

variable {f : state -> step -> state × Option error}

theorem perform_cons_of_none {s s' : state} {x : step}
    (h : f s x = (s', none)) (rest : List step) :
    perform f s (x :: rest) = perform f s' rest := by
  rw [perform, h]

theorem perform_cons_of_some {s s' : state} {x : step} {e : error}
    (h : f s x = (s', some e)) (rest : List step) :
    perform f s (x :: rest) = (s', some e) := by
  rw [perform, h]

/-- Where the state does not decide what is refused, the first refusal is read
off the steps alone. -/
theorem perform_error {refusal : step -> Option error}
    (hf : forall s x, (f s x).2 = refusal x) (s : state) (xs : List step) :
    (perform f s xs).2 = xs.findSome? refusal := by
  induction xs generalizing s with
  | nil =>
      rfl
  | cons x rest ih =>
      rw [List.findSome?_cons, ← hf s x]
      cases hx : f s x with
      | mk s' e =>
          cases e with
          | some e =>
              rw [perform_cons_of_some hx]
          | none =>
              rw [perform_cons_of_none hx]
              exact ih s'

/-- What every attempt keeps holds where the sequence ends. -/
theorem perform_invariant {Inv : state -> Prop} {xs : List step}
    (hstep : forall s x, x ∈ xs -> Inv s -> Inv (f s x).1) {s : state}
    (hs : Inv s) : Inv (perform f s xs).1 := by
  induction xs generalizing s with
  | nil =>
      exact hs
  | cons x rest ih =>
      have hx := hstep s x List.mem_cons_self hs
      have hrest := fun s y hy => hstep s y (List.mem_cons_of_mem x hy)
      cases hfx : f s x with
      | mk s' e =>
          rw [hfx] at hx
          cases e with
          | some e =>
              rw [perform_cons_of_some hfx]
              exact hx
          | none =>
              rw [perform_cons_of_none hfx]
              exact ih hrest hx

end Attempts
end Library
end OpenMk3
