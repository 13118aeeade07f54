import Mathlib.Algebra.Ring.Nat

/-!
# Maximal runs of a predicate

A left-to-right scan over the indices below a bound collects the maximal runs
of indices at which a Boolean predicate holds.  The scan is the usual pair of
nested loops: skip an index where the predicate fails, otherwise advance to the
end of the run and record its inclusive bounds.
-/

namespace OpenMk3
namespace Library
namespace Runs

variable {p : Nat -> Bool} {n : Nat}

/-- Advance while the index is in range and the predicate holds. -/
def runEnd (p : Nat -> Bool) (n c : Nat) : Nat :=
  if c < n ∧ p c = true then runEnd p n (c + 1) else c
termination_by n - c

theorem runEnd_of_stop {c : Nat} (h : ¬ (c < n ∧ p c = true)) :
    runEnd p n c = c := by
  rw [runEnd, if_neg h]

theorem runEnd_of_step {c : Nat} (h : c < n ∧ p c = true) :
    runEnd p n c = runEnd p n (c + 1) := by
  rw [runEnd, if_pos h]

theorem le_runEnd (p : Nat -> Bool) (n c : Nat) : c ≤ runEnd p n c := by
  induction c using runEnd.induct p n with
  | case1 c h ih =>
      rw [runEnd_of_step h]
      omega
  | case2 c h =>
      exact Nat.le_of_eq (runEnd_of_stop h).symm

theorem lt_runEnd {c : Nat} (hc : c < n) (hp : p c = true) :
    c < runEnd p n c := by
  rw [runEnd_of_step ⟨hc, hp⟩]
  exact le_runEnd p n (c + 1)

theorem runEnd_le {c : Nat} (hc : c ≤ n) : runEnd p n c ≤ n := by
  induction c using runEnd.induct p n with
  | case1 c h ih =>
      rw [runEnd_of_step h]
      exact ih h.left
  | case2 c h =>
      rw [runEnd_of_stop h]
      exact hc

theorem holds_before_runEnd {c k : Nat} (hck : c ≤ k)
    (hk : k < runEnd p n c) : p k = true := by
  induction c using runEnd.induct p n with
  | case1 c h ih =>
      rw [runEnd_of_step h] at hk
      rcases Nat.eq_or_lt_of_le hck with heq | hlt
      · rw [← heq]
        exact h.right
      · exact ih hlt hk
  | case2 c h =>
      rw [runEnd_of_stop h] at hk
      omega

theorem stops_at_runEnd {c : Nat} (h : runEnd p n c < n) :
    p (runEnd p n c) = false := by
  induction c using runEnd.induct p n with
  | case1 c hstep ih =>
      rw [runEnd_of_step hstep] at h ⊢
      exact ih h
  | case2 c hstop =>
      rw [runEnd_of_stop hstop] at h ⊢
      cases hp : p c with
      | false => rfl
      | true => exact absurd ⟨h, hp⟩ hstop

/-- Collect the runs from an index on, as inclusive bounds. -/
def runsFrom (p : Nat -> Bool) (n c : Nat) : List (Nat × Nat) :=
  if h : c < n then
    if hp : p c = true then
      have := lt_runEnd h hp
      (c, runEnd p n c - 1) :: runsFrom p n (runEnd p n c)
    else
      runsFrom p n (c + 1)
  else
    []
termination_by n - c

theorem runsFrom_of_ge {c : Nat} (h : ¬ c < n) : runsFrom p n c = [] := by
  rw [runsFrom, dif_neg h]

theorem runsFrom_of_run {c : Nat} (h : c < n) (hp : p c = true) :
    runsFrom p n c =
      (c, runEnd p n c - 1) :: runsFrom p n (runEnd p n c) := by
  rw [runsFrom, dif_pos h, dif_pos hp]

theorem runsFrom_of_skip {c : Nat} (h : c < n) (hp : ¬ p c = true) :
    runsFrom p n c = runsFrom p n (c + 1) := by
  rw [runsFrom, dif_pos h, dif_neg hp]

/-!
## What a run is
-/

/-- An interval of indices where the predicate holds, not extendable. -/
structure IsMaximalRun (p : Nat -> Bool) (n a b : Nat) : Prop where
  le : a ≤ b
  lt : b < n
  holds : forall k, a ≤ k -> k ≤ b -> p k = true
  left : a = 0 ∨ p (a - 1) = false
  right : b + 1 < n -> p (b + 1) = false

theorem IsMaximalRun.eq_of_mem {a b a' b' k : Nat}
    (h : IsMaximalRun p n a b) (h' : IsMaximalRun p n a' b')
    (hk : a ≤ k ∧ k ≤ b) (hk' : a' ≤ k ∧ k ≤ b') : a = a' ∧ b = b' := by
  have hstart : forall {u v u' v' : Nat}, IsMaximalRun p n u v ->
      IsMaximalRun p n u' v' -> u' ≤ k -> k ≤ v -> ¬ u < u' := by
    intro u v u' v' hu hu' huk hkv hlt
    rcases hu'.left with hzero | hfalse
    · omega
    · rw [hu.holds (u' - 1) (by omega) (by omega)] at hfalse
      cases hfalse
  have hstop : forall {u v u' v' : Nat}, IsMaximalRun p n u v ->
      IsMaximalRun p n u' v' -> u' ≤ k -> k ≤ v -> ¬ v < v' := by
    intro u v u' v' hu hu' huk hkv hlt
    have hnext := hu.right (by have := hu'.lt; omega)
    rw [hu'.holds (v + 1) (by omega) (by omega)] at hnext
    cases hnext
  have h1 := hstart h h' hk'.left hk.right
  have h2 := hstart h' h hk.left hk'.right
  have h3 := hstop h h' hk'.left hk.right
  have h4 := hstop h' h hk.left hk'.right
  omega

/-!
## The scan collects exactly the maximal runs
-/

theorem exists_run_of_holds {c k : Nat} (hck : c ≤ k) (hk : k < n)
    (hp : p k = true) :
    exists run, run ∈ runsFrom p n c ∧ run.1 ≤ k ∧ k ≤ run.2 := by
  induction c using runsFrom.induct p n with
  | case1 c hc hpc hlt ih =>
      rw [runsFrom_of_run hc hpc]
      by_cases hend : k < runEnd p n c
      · exact ⟨_, List.mem_cons_self, hck, by simp only; omega⟩
      · rcases ih (by omega) with ⟨run, hmem, hrun⟩
        exact ⟨run, List.mem_cons_of_mem _ hmem, hrun⟩
  | case2 c hc hpc ih =>
      rw [runsFrom_of_skip hc hpc]
      have hne : c ≠ k := by
        intro heq
        exact hpc (heq ▸ hp)
      exact ih (by omega)
  | case3 c hc => omega

/-- A collected run is maximal, when the scan does not start inside a run. -/
theorem isMaximalRun_of_mem {c : Nat}
    (hfresh : c = 0 ∨ p (c - 1) = false ∨ (c < n -> p c = false))
    {run : Nat × Nat} (hmem : run ∈ runsFrom p n c) :
    c ≤ run.1 ∧ IsMaximalRun p n run.1 run.2 := by
  induction c using runsFrom.induct p n with
  | case1 c hc hpc hlt ih =>
      rw [runsFrom_of_run hc hpc] at hmem
      have hle : runEnd p n c ≤ n := runEnd_le (Nat.le_of_lt hc)
      rcases List.mem_cons.mp hmem with heq | htail
      · subst heq
        refine ⟨Nat.le_refl c, by simp only; omega, by simp only; omega,
          ?_, ?_, ?_⟩
        · intro k hck hk
          simp only at hck hk
          exact holds_before_runEnd hck (by omega : k < runEnd p n c)
        · rcases hfresh with h | h | h
          · exact Or.inl h
          · exact Or.inr h
          · rw [h hc] at hpc
            cases hpc
        · intro hnext
          have hend : runEnd p n c - 1 + 1 = runEnd p n c := by omega
          simp only [hend] at hnext ⊢
          exact stops_at_runEnd hnext
      · have hrun := ih (Or.inr (Or.inr stops_at_runEnd)) htail
        exact ⟨by omega, hrun.right⟩
  | case2 c hc hpc ih =>
      rw [runsFrom_of_skip hc hpc] at hmem
      have hrun := ih (Or.inr (Or.inl (by simpa using hpc))) hmem
      exact ⟨by omega, hrun.right⟩
  | case3 c hc =>
      rw [runsFrom_of_ge hc] at hmem
      cases hmem

/-- The scan from zero collects exactly the maximal runs. -/
theorem mem_runsFrom_iff {a b : Nat} :
    (a, b) ∈ runsFrom p n 0 <-> IsMaximalRun p n a b := by
  constructor
  · intro h
    exact (isMaximalRun_of_mem (Or.inl rfl) h).right
  · intro h
    have hlt := h.lt
    rcases exists_run_of_holds (Nat.zero_le a) (Nat.lt_of_le_of_lt h.le hlt)
        (h.holds a (Nat.le_refl a) h.le) with ⟨run, hmem, hrun⟩
    have hmax := (isMaximalRun_of_mem (Or.inl rfl) hmem).right
    rcases h.eq_of_mem hmax ⟨Nat.le_refl a, h.le⟩ hrun with ⟨ha, hb⟩
    rw [ha, hb]
    exact hmem

theorem pairwise_runsFrom (p : Nat -> Bool) (n c : Nat) :
    (runsFrom p n c).Pairwise fun u v => u.2 + 1 < v.1 := by
  induction c using runsFrom.induct p n with
  | case1 c hc hpc hlt ih =>
      rw [runsFrom_of_run hc hpc]
      refine List.pairwise_cons.mpr ⟨?_, ih⟩
      intro run hmem
      have hstop : runEnd p n c < n -> p (runEnd p n c) = false :=
        stops_at_runEnd
      rcases isMaximalRun_of_mem (Or.inr (Or.inr hstop)) hmem with
        ⟨hle, hmax⟩
      rcases Nat.eq_or_lt_of_le hle with heq | hgt
      · have hholds := hmax.holds run.1 (Nat.le_refl _) hmax.le
        have hbound := Nat.lt_of_le_of_lt hmax.le hmax.lt
        rw [← heq] at hholds hbound
        rw [hstop hbound] at hholds
        cases hholds
      · simp only
        omega
  | case2 c hc hpc ih =>
      rw [runsFrom_of_skip hc hpc]
      exact ih
  | case3 c hc =>
      rw [runsFrom_of_ge hc]
      exact List.Pairwise.nil

/-- Runs are a gap apart: with one index more for each of them they still fit,
and one index is left over when the scan starts at a gap. -/
theorem sum_runsFrom_le (p : Nat -> Bool) (n c : Nat) :
    ((runsFrom p n c).map fun run => run.2 - run.1 + 2).sum ≤ n + 1 - c ∧
      ((c < n -> p c = false) ->
        ((runsFrom p n c).map fun run => run.2 - run.1 + 2).sum ≤ n - c) := by
  induction c using runsFrom.induct p n with
  | case1 c hc hpc hlt ih =>
      have hle : runEnd p n c ≤ n := runEnd_le (Nat.le_of_lt hc)
      have hrest := ih.right stops_at_runEnd
      rw [runsFrom_of_run hc hpc, List.map_cons, List.sum_cons]
      refine ⟨?_, ?_⟩
      · simp only
        omega
      · intro hgap
        rw [hgap hc] at hpc
        cases hpc
  | case2 c hc hpc ih =>
      rw [runsFrom_of_skip hc hpc]
      have hrest := ih.left
      omega
  | case3 c hc =>
      rw [runsFrom_of_ge hc]
      simp

end Runs
end Library
end OpenMk3
