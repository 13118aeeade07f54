import Mathlib.Data.List.Induction

/-!
# Set-reset latches

A latch remembers which of two conditions was met last.  When no input meets
both, its state after a list of inputs is read off the last input that met one
of them.
-/

namespace OpenMk3
namespace Library

universe u

variable {input : Type u}

def latch (set reset : input -> Bool) (state : Bool) (i : input) : Bool :=
  if state then !reset i else set i

/-- The inputs that decide the state of a latch. -/
def decides (set reset : input -> Bool) (i : input) : Bool :=
  set i || reset i

/-- The state of a latch after a list of inputs, from the reset state. -/
def latched (set reset : input -> Bool) (is : List input) : Bool :=
  is.foldl (latch set reset) false

theorem latched_snoc (set reset : input -> Bool) (is : List input)
    (i : input) :
    latched set reset (is ++ [i]) =
      latch set reset (latched set reset is) i := by
  rw [latched, List.foldl_append]
  rfl

theorem latch_of_not_decides {set reset : input -> Bool} {i : input}
    (h : decides set reset i = false) (state : Bool) :
    latch set reset state i = state := by
  rcases Bool.or_eq_false_iff.mp h with ⟨hset, hreset⟩
  cases state with
  | false => exact hset
  | true =>
      show (!reset i) = true
      rw [hreset]
      rfl

theorem latch_of_decides {set reset : input -> Bool}
    (hexcl : forall i, set i = true -> reset i = false) {i : input}
    (h : decides set reset i = true) (state : Bool) :
    latch set reset state i = set i := by
  cases hset : set i with
  | true =>
      cases state with
      | false => exact hset
      | true =>
          show (!reset i) = true
          rw [hexcl i hset]
          rfl
  | false =>
      have hreset : reset i = true := by
        unfold decides at h
        rwa [hset, Bool.false_or] at h
      cases state with
      | false => exact hset
      | true =>
          show (!reset i) = false
          rw [hreset]
          rfl

/-- A latch is set exactly when the last deciding input set it. -/
theorem latched_iff {set reset : input -> Bool}
    (hexcl : forall i, set i = true -> reset i = false) (is : List input) :
    latched set reset is = true <->
      exists i, (is.filter (decides set reset)).getLast? = some i ∧
        set i = true := by
  induction is using List.reverseRecOn with
  | nil => simp [latched]
  | append_singleton is i ih =>
      rw [latched_snoc, List.filter_append]
      cases hdecides : decides set reset i with
      | false =>
          rw [latch_of_not_decides hdecides, ih]
          simp [hdecides]
      | true =>
          rw [latch_of_decides hexcl hdecides]
          simp [hdecides]

/-!
## The input that set a latch
-/

/-- Keep the input that set the latch for as long as it stays set. -/
def holds (set reset : input -> Bool) (held : Option input) (i : input) :
    Option input :=
  match held with
  | some j => if reset i then none else some j
  | none => if set i then some i else none

def holder (set reset : input -> Bool) (is : List input) : Option input :=
  is.foldl (holds set reset) none

theorem holder_snoc (set reset : input -> Bool) (is : List input) (i : input) :
    holder set reset (is ++ [i]) = holds set reset (holder set reset is) i := by
  rw [holder, List.foldl_append]
  rfl

/-- A latch has an input that set it exactly when it is set. -/
theorem isSome_holder (set reset : input -> Bool) (is : List input) :
    (holder set reset is).isSome = latched set reset is := by
  induction is using List.reverseRecOn with
  | nil => rfl
  | append_singleton is i ih =>
      rw [holder_snoc, latched_snoc, ← ih]
      cases holder set reset is with
      | none => cases hset : set i <;> simp [holds, latch, hset]
      | some j => cases hreset : reset i <;> simp [holds, latch, hreset]

/-- The input that set a latch holds it until one resets it. -/
theorem holder_append {set reset : input -> Bool} {is : List input} {i : input}
    (h : holder set reset is = some i) {after : List input}
    (hafter : forall j, j ∈ after -> reset j = false) :
    holder set reset (is ++ after) = some i := by
  induction after using List.reverseRecOn with
  | nil => rwa [List.append_nil]
  | append_singleton after j ih =>
      have hj : reset j = false :=
        hafter j (List.mem_append_right after (List.mem_singleton.mpr rfl))
      have hheld := ih fun r hr => hafter r (List.mem_append_left [j] hr)
      rw [← List.append_assoc, holder_snoc, hheld]
      simp [holds, hj]

theorem exists_set_of_holder {set reset : input -> Bool} {is : List input}
    {i : input} (h : holder set reset is = some i) :
    exists before after, is = before ++ i :: after ∧
      latched set reset before = false ∧ set i = true ∧
      forall j, j ∈ after -> reset j = false := by
  induction is using List.reverseRecOn with
  | nil => cases h
  | append_singleton is k ih =>
      rw [holder_snoc] at h
      cases hheld : holder set reset is with
      | none =>
          have hlatch := isSome_holder set reset is
          rw [hheld] at h hlatch
          cases hset : set k with
          | false => simp [holds, hset] at h
          | true =>
              have hki : k = i := by simpa [holds, hset] using h
              subst hki
              exact ⟨is, [], rfl, hlatch.symm, hset, nofun⟩
      | some j =>
          rw [hheld] at h
          cases hreset : reset k with
          | true => simp [holds, hreset] at h
          | false =>
              have hji : j = i := by simpa [holds, hreset] using h
              rcases ih (hji ▸ hheld) with
                ⟨before, after, his, hbefore, hset, hafter⟩
              refine ⟨before, after ++ [k], ?_, hbefore, hset, ?_⟩
              · rw [his, List.append_assoc, List.cons_append]
              · intro r hr
                rcases List.mem_append.mp hr with hold | hnew
                · exact hafter r hold
                · rw [List.mem_singleton.mp hnew]
                  exact hreset

/-- The holder found the latch reset and set it, and no input since reset it. -/
theorem holder_eq_some_iff {set reset : input -> Bool} {is : List input}
    {i : input} :
    holder set reset is = some i <->
      exists before after, is = before ++ i :: after ∧
        latched set reset before = false ∧ set i = true ∧
        forall j, j ∈ after -> reset j = false := by
  constructor
  · exact exists_set_of_holder
  · rintro ⟨before, after, rfl, hbefore, hset, hafter⟩
    have hnone : holder set reset before = none := by
      rw [← Option.not_isSome_iff_eq_none, isSome_holder, hbefore]
      exact Bool.false_ne_true
    have hheld : holder set reset (before ++ [i]) = some i := by
      rw [holder_snoc, hnone]
      simp [holds, hset]
    rw [← List.singleton_append, ← List.append_assoc]
    exact holder_append hheld hafter

end Library
end OpenMk3
