import Mathlib.Data.List.Induction
import Mathlib.Data.Set.Basic

/-!
# Covered points

A set of points that operations add to and that some operations empty first.
After a list of operations it holds the points covered since the last one that
empties it.
-/

namespace OpenMk3
namespace Library
namespace Coverage

universe u v

variable {op : Type u} {point : Type v} (empties : op -> Prop)
  (covers : op -> point -> Prop)

/-- The points after one operation. -/
def cover (marked : Set point) (o : op) : Set point :=
  {a | covers o a ∨ (¬ empties o ∧ a ∈ marked)}

theorem mem_cover_iff {marked : Set point} {o : op} {a : point} :
    a ∈ cover empties covers marked o <->
      covers o a ∨ (¬ empties o ∧ a ∈ marked) := Iff.rfl

/-- Some operation covered the point, and none has emptied the set since. -/
def CoveredSince (ops : List op) (a : point) : Prop :=
  exists front o back, ops = front ++ o :: back ∧ covers o a ∧
    forall o', o' ∈ back -> ¬ empties o'

theorem not_coveredSince_nil (a : point) :
    ¬ CoveredSince empties covers [] a := by
  rintro ⟨front, o, back, hsplit, _⟩
  cases front <;> cases hsplit

theorem coveredSince_snoc_iff (ops : List op) (o : op) (a : point) :
    CoveredSince empties covers (ops ++ [o]) a <->
      covers o a ∨ (¬ empties o ∧ CoveredSince empties covers ops a) := by
  constructor
  · rintro ⟨front, o', back, hsplit, hcovers, hback⟩
    rcases List.eq_nil_or_concat back with rfl | ⟨back', last, rfl⟩
    · rcases List.append_inj' hsplit rfl with ⟨_, ho⟩
      cases ho
      exact Or.inl hcovers
    · rw [List.concat_eq_append, <- List.cons_append, <- List.append_assoc] at hsplit
      rcases List.append_inj' hsplit rfl with ⟨hops, ho⟩
      cases ho
      refine Or.inr ⟨hback o (by simp), front, o', back', hops, hcovers, ?_⟩
      intro o'' ho''
      exact hback o'' (by simp [ho''])
  · rintro (hcovers | ⟨hkeep, front, o', back, rfl, hcovers, hback⟩)
    · exact ⟨ops, o, [], rfl, hcovers, by simp⟩
    · refine ⟨front, o', back ++ [o], by simp, hcovers, ?_⟩
      intro o'' ho''
      rcases List.mem_append.mp ho'' with ho'' | ho''
      · exact hback o'' ho''
      · rw [List.mem_singleton.mp ho'']
        exact hkeep

/-- The set holds the points covered since it was last emptied. -/
theorem mem_foldl_cover_iff (ops : List op) (a : point) :
    a ∈ ops.foldl (cover empties covers) ∅ <-> CoveredSince empties covers ops a := by
  induction ops using List.reverseRecOn with
  | nil =>
      exact iff_of_false (Set.notMem_empty a) (not_coveredSince_nil empties covers a)
  | append_singleton ops o ih =>
      rw [List.foldl_append, coveredSince_snoc_iff, <- ih]
      rfl

/-- Covering restricted to some of the points covers these points only. -/
theorem coveredSince_and_iff (P : point -> Prop) (ops : List op) (a : point) :
    CoveredSince empties (fun o a => P a ∧ covers o a) ops a <->
      P a ∧ CoveredSince empties covers ops a := by
  constructor
  · rintro ⟨front, o, back, hsplit, ⟨ha, hcovers⟩, hback⟩
    exact ⟨ha, front, o, back, hsplit, hcovers, hback⟩
  · rintro ⟨ha, front, o, back, hsplit, hcovers, hback⟩
    exact ⟨front, o, back, hsplit, ⟨ha, hcovers⟩, hback⟩

end Coverage
end Library
end OpenMk3
