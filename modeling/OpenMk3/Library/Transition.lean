import Mathlib.Data.List.Basic
import Mathlib.Data.List.Induction

/-!
# Guarded transition systems

A guarded system is a step function that may refuse an action.  Runs stop at
the first refused action.  The module provides how runs compose and the rule
that an invariant kept by the steps holds after every run.
-/

namespace OpenMk3
namespace Library

universe u

variable {state action : Type u}

/-- One step of a system; `none` when the action is not enabled. -/
abbrev Transition (state action : Type u) : Type u :=
  state -> action -> Option state

namespace Transition

/-- Perform a list of actions in order. -/
def run (step : Transition state action) : state -> List action -> Option state
  | s, [] => some s
  | s, a :: rest => (step s a).bind fun s' => run step s' rest

@[simp] theorem run_nil (step : Transition state action) (s : state) :
    run step s [] = some s := rfl

theorem run_cons (step : Transition state action) (s : state) (a : action)
    (rest : List action) :
    run step s (a :: rest) = (step s a).bind fun s' => run step s' rest := rfl

theorem run_append (step : Transition state action) (s : state)
    (xs ys : List action) :
    run step s (xs ++ ys) = (run step s xs).bind fun s' => run step s' ys := by
  induction xs generalizing s with
  | nil => rfl
  | cons a rest ih =>
      rw [List.cons_append, run_cons, run_cons, Option.bind_assoc]
      congr 1
      funext s'
      exact ih s'

theorem run_snoc (step : Transition state action) (s : state)
    (xs : List action) (a : action) :
    run step s (xs ++ [a]) = (run step s xs).bind fun s' => step s' a := by
  rw [run_append]
  congr 1
  funext s'
  simp [run_cons]

/-- An invariant kept by every step that meets a condition holds after every
run whose steps all meet it. -/
theorem run_invariant_of_steps (step : Transition state action)
    (Ok : state -> action -> Prop) {s0 : state} {Inv : state -> Prop}
    (hstart : Inv s0)
    (hstep : forall s a s', Inv s -> Ok s a -> step s a = some s' -> Inv s')
    {xs : List action}
    (hok : forall pre a s, pre ++ [a] <+: xs -> run step s0 pre = some s ->
      Ok s a)
    {s : state} (h : run step s0 xs = some s) : Inv s := by
  induction xs generalizing s0 with
  | nil =>
      rw [run_nil] at h
      cases h
      exact hstart
  | cons a rest ih =>
      rcases Option.bind_eq_some_iff.mp h with ⟨s', hs', hrest⟩
      have hfirst : Ok s0 a :=
        hok [] a s0 (List.prefix_append [a] rest) (run_nil step s0)
      refine ih (hstep s0 a s' hstart hfirst hs') ?_ hrest
      intro pre b t hpre ht
      apply hok (a :: pre) b t ((List.prefix_cons_inj a).mpr hpre)
      rw [run_cons, hs']
      exact ht

/-!
## Properties of the steps of a run
-/

section Along

variable (step : Transition state action) (s0 : state)

/-- Every step of a run has the property, which sees the actions before it. -/
def Along (P : List action -> state -> action -> state -> Prop)
    (xs : List action) : Prop :=
  forall pre a s s', pre ++ [a] <+: xs -> run step s0 pre = some s ->
    step s a = some s' -> P pre s a s'

variable {step s0} {Good Ok : List action -> state -> action -> state -> Prop}

theorem along_nil : Along step s0 Ok [] := by
  intro pre a s s' hpre
  simp at hpre

theorem along_snoc_iff {xs : List action} {a : action} :
    Along step s0 Ok (xs ++ [a]) <->
      Along step s0 Ok xs ∧ forall s s', run step s0 xs = some s ->
        step s a = some s' -> Ok xs s a s' := by
  constructor
  · intro h
    refine ⟨?_, ?_⟩
    · intro pre b s s' hpre
      exact h pre b s s' (hpre.trans (List.prefix_append xs [a]))
    · intro s s'
      exact h xs a s s' (List.prefix_refl _)
  · rintro ⟨hxs, hlast⟩ pre b s s' hpre
    rcases List.prefix_concat_iff.mp hpre with heq | hpre
    · rcases List.append_inj' heq rfl with ⟨rfl, hb⟩
      cases hb
      exact hlast s s'
    · exact hxs pre b s s' hpre

/-- An invariant kept by the steps that meet a condition holds after every run
whose steps all meet it. -/
theorem along_invariant {Inv : List action -> state -> Prop}
    (Ok : List action -> state -> action -> state -> Prop) (hstart : Inv [] s0)
    (hkeep : forall xs s a s', Inv xs s -> step s a = some s' ->
      Ok xs s a s' -> Inv (xs ++ [a]) s')
    {xs : List action} (hok : Along step s0 Ok xs) {s : state}
    (h : run step s0 xs = some s) : Inv xs s := by
  induction xs using List.reverseRecOn generalizing s with
  | nil =>
      cases h
      exact hstart
  | append_singleton xs a ih =>
      rw [run_snoc] at h
      rcases Option.bind_eq_some_iff.mp h with ⟨t, ht, hlast⟩
      rcases along_snoc_iff.mp hok with ⟨hxs, ha⟩
      exact hkeep xs t a s (ih hxs ht) hlast (ha t s ht hlast)

/-- A property of the steps holds along a run exactly when a condition on them
does, when the two agree wherever the invariant holds that the condition keeps. -/
theorem along_iff_along (Inv : List action -> state -> Prop) (hstart : Inv [] s0)
    (heq : forall xs s a s', Inv xs s -> step s a = some s' ->
      (Good xs s a s' <-> Ok xs s a s'))
    (hkeep : forall xs s a s', Inv xs s -> step s a = some s' ->
      Ok xs s a s' -> Inv (xs ++ [a]) s')
    (xs : List action) : Along step s0 Good xs <-> Along step s0 Ok xs := by
  induction xs using List.reverseRecOn with
  | nil => exact iff_of_true along_nil along_nil
  | append_singleton xs a ih =>
      rw [along_snoc_iff, along_snoc_iff, ih]
      refine and_congr_right fun hok => ?_
      have hlast : forall s s', run step s0 xs = some s -> step s a = some s' ->
          (Good xs s a s' <-> Ok xs s a s') := fun s s' hs =>
        heq xs s a s' (along_invariant Ok hstart hkeep hok hs)
      exact forall₂_congr fun s s' => forall₂_congr (hlast s s')

end Along

/-!
## Since
-/

section Since

variable (step : Transition state action) (s0 : state)

/-- A step of the run has the one property, and none behind it the other. -/
def Since (P Q : state -> action -> Prop) (xs : List action) : Prop :=
  exists pre a post s, xs = pre ++ a :: post ∧ run step s0 pre = some s ∧ P s a ∧
    forall mid b rest t, post = mid ++ b :: rest ->
      run step s0 (pre ++ a :: mid) = some t -> ¬ Q t b

variable {step s0} {P Q : state -> action -> Prop}

theorem not_since_nil : ¬ Since step s0 P Q [] := by
  rintro ⟨pre, a, post, s, heq, -⟩
  simp at heq

theorem since_snoc_iff {xs : List action} {s : state}
    (h : run step s0 xs = some s) (a : action) :
    Since step s0 P Q (xs ++ [a]) <-> P s a ∨ Since step s0 P Q xs ∧ ¬ Q s a := by
  constructor
  · rintro ⟨pre, b, post, t, heq, ht, hp, hq⟩
    rcases List.eq_nil_or_concat post with rfl | ⟨front, c, rfl⟩
    · rcases List.append_inj' heq rfl with ⟨rfl, hab⟩
      cases hab
      cases h.symm.trans ht
      exact .inl hp
    · rw [List.concat_eq_append, ← List.cons_append, ← List.append_assoc] at heq
      rcases List.append_inj' heq rfl with ⟨rfl, hac⟩
      cases hac
      rw [List.concat_eq_append] at hq
      refine .inr ⟨⟨pre, b, front, t, rfl, ht, hp, ?_⟩, hq front a [] s rfl h⟩
      intro mid c rest u hfront
      exact hq mid c (rest ++ [a]) u (by rw [hfront]; simp)
  · rintro (hp | ⟨⟨pre, b, post, t, rfl, ht, hp, hq⟩, hlast⟩)
    · refine ⟨xs, a, [], s, rfl, h, hp, ?_⟩
      intro mid c rest u hnil
      simp at hnil
    · refine ⟨pre, b, post ++ [a], t, by simp, ht, hp, ?_⟩
      intro mid c rest u heq hu
      rcases List.eq_nil_or_concat rest with rfl | ⟨front, d, rfl⟩
      · rcases List.append_inj' heq rfl with ⟨rfl, hac⟩
        cases hac
        cases h.symm.trans hu
        exact hlast
      · rw [List.concat_eq_append, ← List.cons_append, ← List.append_assoc] at heq
        rcases List.append_inj' heq rfl with ⟨hpost, -⟩
        exact hq mid c front u hpost hu

/-- What a step of the one kind brings about and one of the other ends, nothing else
changing it, holds exactly since. -/
theorem holds_iff_since {R : state -> Prop} (hstart : ¬ R s0)
    (hstep : forall s a s', step s a = some s' -> (R s' <-> P s a ∨ R s ∧ ¬ Q s a))
    {xs : List action} {s : state} (h : run step s0 xs = some s) :
    R s <-> Since step s0 P Q xs := by
  induction xs using List.reverseRecOn generalizing s with
  | nil =>
      cases h
      exact iff_of_false hstart not_since_nil
  | append_singleton xs a ih =>
      rw [run_snoc] at h
      rcases Option.bind_eq_some_iff.mp h with ⟨t, ht, hlast⟩
      rw [hstep t a s hlast, ih ht, since_snoc_iff ht]

end Since

/-- When the invariant also enables every action, no run is ever refused. -/
theorem run_total (step : Transition state action) {s0 : state}
    {Inv : state -> Prop} (hstart : Inv s0)
    (hstep : forall s a, Inv s -> exists s', step s a = some s' ∧ Inv s')
    (xs : List action) : exists s, run step s0 xs = some s ∧ Inv s := by
  induction xs generalizing s0 with
  | nil => exact ⟨s0, rfl, hstart⟩
  | cons a rest ih =>
      rcases hstep s0 a hstart with ⟨s', hs', hinv⟩
      rcases ih hinv with ⟨s, hrun, hs⟩
      exact ⟨s, by rw [run_cons, hs']; exact hrun, hs⟩

/-!
## Settling

Actions of a kind that each use up some work come to an end.
-/

section Settling

variable (step : Transition state action) (Inner : action -> Prop)

/-- No action of the kind is enabled. -/
def Settled (s : state) : Prop :=
  forall a, Inner a -> step s a = none

variable {step Inner} {Inv : state -> Prop} {work : state -> Nat}

/-- A run of such actions is no longer than the work it uses up. -/
theorem length_add_work_le
    (hdown : forall s a s', Inv s -> Inner a -> step s a = some s' ->
      Inv s' ∧ work s' < work s)
    {xs : List action} (hxs : forall a, a ∈ xs -> Inner a) {s s' : state}
    (hinv : Inv s) (h : run step s xs = some s') :
    Inv s' ∧ xs.length + work s' ≤ work s := by
  induction xs generalizing s with
  | nil =>
      cases h
      exact ⟨hinv, Nat.le_of_eq (Nat.zero_add _)⟩
  | cons a rest ih =>
      rcases Option.bind_eq_some_iff.mp h with ⟨t, ht, hrest⟩
      rcases hdown s a t hinv (hxs a List.mem_cons_self) ht with ⟨htinv, hless⟩
      rcases ih (fun b hb => hxs b (List.mem_cons_of_mem a hb)) htinv hrest with
        ⟨hinv', hle⟩
      refine ⟨hinv', ?_⟩
      rw [List.length_cons]
      omega

theorem exists_settled
    (hdown : forall s a s', Inv s -> Inner a -> step s a = some s' ->
      Inv s' ∧ work s' < work s)
    {s : state} (hinv : Inv s) :
    exists xs s', (forall a, a ∈ xs -> Inner a) ∧ run step s xs = some s' ∧
      Settled step Inner s' := by
  induction hn : work s using Nat.strongRecOn generalizing s with
  | ind n ih =>
      by_cases hsettled : Settled step Inner s
      · exact ⟨[], s, nofun, rfl, hsettled⟩
      · rcases not_forall.mp hsettled with ⟨a, ha⟩
        rcases not_forall.mp ha with ⟨ha, hstep⟩
        rcases Option.ne_none_iff_exists'.mp hstep with ⟨t, ht⟩
        rcases hdown s a t hinv ha ht with ⟨htinv, hless⟩
        rcases ih (work t) (hn ▸ hless) htinv rfl with ⟨xs, s', hxs, hrun, hs'⟩
        refine ⟨a :: xs, s', List.forall_mem_cons.mpr ⟨ha, hxs⟩, ?_, hs'⟩
        rw [run_cons, ht]
        exact hrun

end Settling

end Transition

end Library
end OpenMk3
