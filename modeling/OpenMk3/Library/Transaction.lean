import Mathlib.Data.List.Basic

/-!
# Statements and transactions

Statements act on a store and may be rejected, by their own rule or by a fault
of the moment.  A transaction performs all of its statements or leaves the
store as it was.
-/

namespace OpenMk3
namespace Library
namespace Transaction

universe u v

variable {stmt : Type u} {store : Type v}

/-- Perform statements in order, up to the first that is rejected. -/
def runAll (exec : stmt -> store -> Option store) :
    List stmt -> store -> Option store
  | [], s => some s
  | q :: rest, s => (exec q s).bind (runAll exec rest)

/-- The same with faults: the statement numbered `n` fails when `fails n`. -/
def runFaulty (exec : stmt -> store -> Option store) (fails : Nat -> Bool) :
    Nat -> List stmt -> store -> Option store
  | _, [], s => some s
  | n, q :: rest, s =>
      if fails n then none
      else (exec q s).bind (runFaulty exec fails (n + 1) rest)

variable {exec : stmt -> store -> Option store}

theorem runAll_append (xs ys : List stmt) (s : store) :
    runAll exec (xs ++ ys) s = (runAll exec xs s).bind (runAll exec ys) := by
  induction xs generalizing s with
  | nil =>
      rfl
  | cons q rest ih =>
      simp only [List.cons_append, runAll, Option.bind_assoc]
      congr 1
      funext s'
      exact ih s'

/-- Faults only cut a run short. -/
theorem runAll_of_runFaulty {fails : Nat -> Bool} {n : Nat} {xs : List stmt}
    {s s' : store} (h : runFaulty exec fails n xs s = some s') :
    runAll exec xs s = some s' := by
  induction xs generalizing n s with
  | nil =>
      exact h
  | cons q rest ih =>
      rw [runFaulty] at h
      split at h
      · cases h
      · rcases Option.bind_eq_some_iff.mp h with ⟨mid, hmid, hrest⟩
        rw [runAll, hmid]
        exact ih hrest

theorem runFaulty_of_no_faults {fails : Nat -> Bool}
    (hfails : forall n, fails n = false) (n : Nat) (xs : List stmt)
    (s : store) : runFaulty exec fails n xs s = runAll exec xs s := by
  induction xs generalizing n s with
  | nil =>
      rfl
  | cons q rest ih =>
      rw [runFaulty, runAll, hfails n]
      simp only [Bool.false_eq_true, if_false]
      congr 1
      funext s'
      exact ih (n + 1) s'

/-- A statement repeated over a list, when the store after each prefix of the
list is known. -/
theorem runAll_map {α : Type u} {make : α -> stmt}
    {after : store -> List α -> store} (hnil : forall s, after s [] = s)
    (hcons : forall s a rest, exists mid, exec (make a) s = some mid ∧
      after mid rest = after s (a :: rest))
    (xs : List α) (s : store) :
    runAll exec (xs.map make) s = some (after s xs) := by
  induction xs generalizing s with
  | nil =>
      rw [hnil]
      rfl
  | cons a rest ih =>
      rcases hcons s a rest with ⟨mid, hmid, hafter⟩
      rw [List.map_cons, runAll, hmid, Option.bind_some, ih, hafter]

/-- The store after a transaction, and whether it was committed. -/
def transact (body : store -> Option store) (s : store) : Bool × store :=
  match body s with
  | some s' => (true, s')
  | none => (false, s)

theorem transact_of_some {body : store -> Option store} {s s' : store}
    (h : body s = some s') : transact body s = (true, s') := by
  rw [transact, h]

theorem transact_of_none {body : store -> Option store} {s : store}
    (h : body s = none) : transact body s = (false, s) := by
  rw [transact, h]

end Transaction
end Library
end OpenMk3
