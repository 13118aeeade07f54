import Mathlib.Logic.Basic

/-!
# Fallible computations

What a successful chain of `Except` computations says about its links, and
computations that may stop without a result besides failing: a panic, a loop
that has used up its rounds.
-/

namespace OpenMk3
namespace Library
namespace Fallible

universe u v

variable {ε : Type u} {α β : Type v}

@[simp] theorem ok_bind (a : α) (f : α -> Except ε β) :
    ((Except.ok a : Except ε α) >>= f) = f a := rfl

@[simp] theorem error_bind (e : ε) (f : α -> Except ε β) :
    ((Except.error e : Except ε α) >>= f) = .error e := rfl

theorem bind_eq_ok_iff {x : Except ε α} {f : α -> Except ε β} {b : β} :
    (x >>= f) = .ok b <-> exists a, x = .ok a ∧ f a = .ok b := by
  cases x with
  | error e =>
      simp
  | ok a =>
      simp

@[simp] theorem mapError_ok {ε' : Type u} (g : ε -> ε') (a : α) :
    (Except.ok a : Except ε α).mapError g = .ok a := rfl

@[simp] theorem mapError_error {ε' : Type u} (g : ε -> ε') (e : ε) :
    (Except.error e : Except ε α).mapError g = .error (g e) := rfl

/-!
## Computations that may stop
-/

section Stopping

variable {ε α β : Type u}

/-- A computation with an outcome. -/
def settled (x : Except ε α) : ExceptT ε Option α := ExceptT.mk (some x)

/-- No outcome. -/
def stopped : ExceptT ε Option α := ExceptT.mk none

/-- A value that is there, or no outcome. -/
def expect (x : Option α) : ExceptT ε Option α := ExceptT.mk (x.map .ok)

@[simp] theorem expect_some (a : α) :
    (expect (some a) : ExceptT ε Option α) = pure a := rfl

/-- A chain whose links all have an outcome has the outcome of the chain. -/
theorem settled_bind {x : Except ε α} {f : α -> ExceptT ε Option β}
    {g : α -> Except ε β} (h : forall a, x = .ok a -> f a = settled (g a)) :
    (settled x >>= f) = settled (x >>= g) := by
  cases x with
  | error e =>
      rfl
  | ok a =>
      exact h a rfl

/-- A chain of steps none of which stops while the invariant holds. -/
theorem foldlM_eq_foldl_of_invariant {f : β -> α -> Option β} {g : β -> α -> β}
    (Inv : β -> Prop) {xs : List α}
    (h : forall b a, Inv b -> a ∈ xs -> f b a = some (g b a) ∧ Inv (g b a)) {b : β}
    (hb : Inv b) : xs.foldlM f b = some (xs.foldl g b) ∧ Inv (xs.foldl g b) := by
  induction xs generalizing b with
  | nil =>
      exact ⟨rfl, hb⟩
  | cons x xs ih =>
      rcases h b x hb (by simp) with ⟨hstep, hnext⟩
      rw [List.foldlM_cons, hstep, List.foldl_cons]
      exact ih (fun b a hinv ha => h b a hinv (by simp [ha])) hnext

theorem foldlM_eq_foldl {f : β -> α -> Option β} {g : β -> α -> β} {xs : List α}
    (h : forall b a, a ∈ xs -> f b a = some (g b a)) (b : β) :
    xs.foldlM f b = some (xs.foldl g b) :=
  (foldlM_eq_foldl_of_invariant (fun _ => True)
    (fun b a _ ha => ⟨h b a ha, trivial⟩) trivial).left

/-- A chain of steps stops where one of them does. -/
theorem foldlM_eq_none_iff {f : β -> α -> Option β} {bad : α -> Prop}
    (h : forall b a, f b a = none <-> bad a) {b : β} {xs : List α} :
    xs.foldlM f b = none <-> exists a, a ∈ xs ∧ bad a := by
  induction xs generalizing b with
  | nil =>
      exact iff_of_false nofun (by simp)
  | cons x xs ih =>
      rw [List.foldlM_cons]
      cases hb : f b x with
      | none =>
          exact iff_of_true rfl ⟨x, by simp, (h b x).mp hb⟩
      | some b' =>
          have hx : Not (bad x) := fun hbad => by
            rw [(h b x).mpr hbad] at hb
            cases hb
          simp [ih, hx]

end Stopping

end Fallible
end Library
end OpenMk3
