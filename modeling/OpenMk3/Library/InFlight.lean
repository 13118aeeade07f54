import Mathlib.Data.List.Basic
import Mathlib.Data.List.Nodup

/-!
# Requests in flight

Numbered requests that are answered in any order and handed back in the order
they were issued.  What is handed back under a number is the answer reported
for it, and every request is answered once.
-/

namespace OpenMk3
namespace Library

universe u

/-- The answers handed back, the requests under way with the answers that have
come in, and all answers reported, by request number. -/
structure InFlight (answer : Type u) where
  returned : List answer
  pending : List (Option answer)
  reported : List (Nat × answer)

namespace InFlight

variable {answer : Type u}

def empty : InFlight answer :=
  { returned := []
    pending := []
    reported := [] }

/-- What is known about every request, by number. -/
def answers (q : InFlight answer) : List (Option answer) :=
  q.returned.map some ++ q.pending

def issue (q : InFlight answer) : InFlight answer :=
  { q with pending := q.pending ++ [none] }

/-- The `i`th request under way is answered. -/
def report (q : InFlight answer) (i : Nat) (a : answer) : InFlight answer :=
  { q with
    pending := q.pending.set i (some a)
    reported := q.reported ++ [(q.returned.length + i, a)] }

/-- The answer of the oldest request is handed back. -/
def handBack (q : InFlight answer) (a : answer) (rest : List (Option answer)) :
    InFlight answer :=
  { q with
    returned := q.returned ++ [a]
    pending := rest }

/-- The reports are the answers that are known, each reported once. -/
structure Faithful (q : InFlight answer) : Prop where
  mem_iff : forall k a, (k, a) ∈ q.reported <-> q.answers[k]? = some (some a)
  once : (q.reported.map Prod.fst).Nodup

theorem faithful_empty : (empty : InFlight answer).Faithful where
  mem_iff k a := by simp [empty, answers]
  once := List.nodup_nil

variable {q : InFlight answer}

theorem Faithful.issue (h : q.Faithful) : q.issue.Faithful where
  mem_iff k a := by
    have hanswers : q.issue.answers = q.answers ++ [none] := by
      unfold answers InFlight.issue
      rw [List.append_assoc]
    rw [show q.issue.reported = q.reported from rfl, h.mem_iff, hanswers,
      List.getElem?_append]
    split
    · rfl
    · next hlen =>
        have hnone : q.answers[k]? = none :=
          List.getElem?_eq_none (Nat.le_of_not_lt hlen)
        rw [hnone]
        refine iff_of_false nofun ?_
        intro hsome
        rw [List.getElem?_singleton] at hsome
        split at hsome
        · cases hsome
        · cases hsome
  once := h.once

theorem answers_report (i : Nat) (a : answer) :
    (q.report i a).answers = q.answers.set (q.returned.length + i) (some a) := by
  unfold answers report
  rw [List.set_append_right _ _ (by simp)]
  simp

theorem Faithful.report (h : q.Faithful) {i : Nat} (a : answer)
    (hopen : q.pending[i]? = some none) : (q.report i a).Faithful := by
  have hwas : q.answers[q.returned.length + i]? = some none := by
    unfold answers
    rw [List.getElem?_append_right (by simp), List.length_map,
      Nat.add_sub_cancel_left]
    exact hopen
  have hlt : q.returned.length + i < q.answers.length := by
    by_contra hge
    rw [List.getElem?_eq_none (Nat.le_of_not_lt hge)] at hwas
    cases hwas
  exact
    { mem_iff := fun k b => by
        rw [answers_report, List.getElem?_set]
        show (k, b) ∈ q.reported ++ [(q.returned.length + i, a)] <-> _
        rw [List.mem_append, List.mem_singleton, h.mem_iff, Prod.mk.injEq]
        split
        · next heq =>
            rw [← heq, hwas]
            simp [eq_comm]
        · next hne =>
            simp [Ne.symm hne]
      once := by
        show (List.map Prod.fst (q.reported ++ [(q.returned.length + i, a)])).Nodup
        rw [List.map_append, List.map_singleton]
        refine h.once.append (List.nodup_singleton _) ?_
        intro k hk hk'
        rw [List.mem_singleton] at hk'
        rcases List.mem_map.mp hk with ⟨⟨k', b⟩, hmem, rfl⟩
        rw [show k' = q.returned.length + i from hk', h.mem_iff, hwas] at hmem
        cases hmem }

theorem Faithful.handBack (h : q.Faithful) {a : answer}
    {rest : List (Option answer)} (hfirst : q.pending = some a :: rest) :
    (q.handBack a rest).Faithful where
  mem_iff k b := by
    have hanswers : (q.handBack a rest).answers = q.answers := by
      unfold answers InFlight.handBack
      rw [hfirst, List.map_append, List.append_assoc]
      rfl
    rw [hanswers]
    exact h.mem_iff k b
  once := h.once

/-- The answer handed back under a number is the one reported for it. -/
theorem Faithful.returned_iff (h : q.Faithful) (k : Nat) (a : answer) :
    q.returned[k]? = some a <-> k < q.returned.length ∧ (k, a) ∈ q.reported := by
  rw [h.mem_iff]
  unfold answers
  constructor
  · intro hsome
    have hlt : k < q.returned.length := by
      by_contra hge
      rw [List.getElem?_eq_none (Nat.le_of_not_lt hge)] at hsome
      cases hsome
    refine ⟨hlt, ?_⟩
    rw [List.getElem?_append_left (by rwa [List.length_map]), List.getElem?_map,
      hsome]
    rfl
  · rintro ⟨hlt, hsome⟩
    rw [List.getElem?_append_left (by rwa [List.length_map]),
      List.getElem?_map] at hsome
    rcases Option.map_eq_some_iff.mp hsome with ⟨b, hb, heq⟩
    rw [hb, Option.some.inj heq]

end InFlight

end Library
end OpenMk3
