import Mathlib.Data.List.Basic
import Mathlib.Data.List.Induction

/-!
# Transducers

A transducer reads a list of inputs one at a time, keeps a state, and emits a
list of outputs at each step.  This module provides the run functions, how runs
compose, the induction rule that carries an invariant over consumed inputs,
state and emitted outputs, and the projection rule that compares a machine with
a smaller one following only part of its state.
-/

namespace OpenMk3
namespace Library

universe u

variable {state input output frame state' input' output' : Type u}

/-- One step of a transducer: the next state and the outputs of the step. -/
abbrev Transducer (state input output : Type u) : Type u :=
  state -> input -> state × List output

namespace Transducer

/-- The state reached after a list of inputs. -/
def final (m : Transducer state input output) : state -> List input -> state
  | s, [] => s
  | s, i :: rest => final m (m s i).1 rest

/-- The outputs emitted along a list of inputs. -/
def trace (m : Transducer state input output) :
    state -> List input -> List output
  | _, [] => []
  | s, i :: rest => (m s i).2 ++ trace m (m s i).1 rest

/-!
## Composition of runs
-/

@[simp] theorem final_nil (m : Transducer state input output) (s : state) :
    final m s [] = s := rfl

@[simp] theorem trace_nil (m : Transducer state input output) (s : state) :
    trace m s [] = [] := rfl

theorem final_cons (m : Transducer state input output) (s : state)
    (i : input) (rest : List input) :
    final m s (i :: rest) = final m (m s i).1 rest := rfl

theorem trace_cons (m : Transducer state input output) (s : state)
    (i : input) (rest : List input) :
    trace m s (i :: rest) = (m s i).2 ++ trace m (m s i).1 rest := rfl

theorem final_append (m : Transducer state input output) (s : state)
    (xs ys : List input) :
    final m s (xs ++ ys) = final m (final m s xs) ys := by
  induction xs generalizing s with
  | nil => rfl
  | cons i rest ih =>
      rw [List.cons_append, final_cons, final_cons]
      exact ih (m s i).1

theorem trace_append (m : Transducer state input output) (s : state)
    (xs ys : List input) :
    trace m s (xs ++ ys) = trace m s xs ++ trace m (final m s xs) ys := by
  induction xs generalizing s with
  | nil => rfl
  | cons i rest ih =>
      rw [List.cons_append, trace_cons, trace_cons, final_cons,
        ih (m s i).1, List.append_assoc]

theorem final_snoc (m : Transducer state input output) (s : state)
    (xs : List input) (i : input) :
    final m s (xs ++ [i]) = (m (final m s xs) i).1 := by
  rw [final_append, final_cons, final_nil]

theorem trace_snoc (m : Transducer state input output) (s : state)
    (xs : List input) (i : input) :
    trace m s (xs ++ [i]) = trace m s xs ++ (m (final m s xs) i).2 := by
  rw [trace_append, trace_cons, trace_nil, List.append_nil]

/-- A part of the state that each step updates by itself is a fold of inputs. -/
theorem observe_final {value : Type u} {m : Transducer state input output}
    (observe : state -> value) (f : value -> input -> value)
    (hstep : forall s i, observe (m s i).1 = f (observe s) i) (s : state)
    (is : List input) :
    observe (final m s is) = is.foldl f (observe s) := by
  induction is generalizing s with
  | nil => rfl
  | cons i rest ih =>
      rw [final_cons, ih, hstep, List.foldl_cons]

theorem exists_step_of_mem_trace {m : Transducer state input output}
    {s : state} {is : List input} {o : output} (h : o ∈ trace m s is) :
    exists s' i, i ∈ is ∧ o ∈ (m s' i).2 := by
  induction is generalizing s with
  | nil => cases h
  | cons i rest ih =>
      rw [trace_cons, List.mem_append] at h
      rcases h with hstep | hrest
      · exact ⟨s, i, List.mem_cons_self, hstep⟩
      · rcases ih hrest with ⟨s', j, hj, ho⟩
        exact ⟨s', j, List.mem_cons_of_mem i hj, ho⟩

/-- When steps emit one output at most, each output of a run has its own step. -/
theorem exists_step_of_trace_eq {m : Transducer state input output}
    (hone : forall s i, (m s i).2.length ≤ 1) {s : state} {is : List input}
    {front back : List output} {o : output}
    (h : trace m s is = front ++ o :: back) :
    exists pre i post, is = pre ++ i :: post ∧ trace m s pre = front ∧
      (m (final m s pre) i).2 = [o] := by
  induction is generalizing s front with
  | nil => simp at h
  | cons i rest ih =>
      have hlen := hone s i
      rw [trace_cons] at h
      cases hstep : (m s i).2 with
      | nil =>
          rw [hstep, List.nil_append] at h
          rcases ih h with ⟨pre, j, post, hrest, hpre, hj⟩
          refine ⟨i :: pre, j, post, by rw [hrest, List.cons_append], ?_, hj⟩
          rw [trace_cons, hstep, hpre, List.nil_append]
      | cons x more =>
          have hmore : more = [] := by
            rw [hstep, List.length_cons] at hlen
            exact List.length_eq_zero_iff.mp (by omega)
          rw [hstep, hmore, List.singleton_append] at h
          cases front with
          | nil =>
              have hx := (List.cons.inj h).left
              exact ⟨[], i, rest, rfl, rfl, by rw [final_nil, hstep, hmore, hx]⟩
          | cons y front =>
              rcases List.cons.inj h with ⟨hx, htail⟩
              rcases ih htail with ⟨pre, j, post, hrest, hpre, hj⟩
              refine ⟨i :: pre, j, post, by rw [hrest, List.cons_append], ?_, hj⟩
              rw [trace_cons, hstep, hmore, hpre, hx, List.singleton_append]

/-!
## Renamed inputs
-/

theorem final_map (m : Transducer state input' output) (f : input -> input')
    (s : state) (is : List input) :
    final m s (is.map f) = final (fun s i => m s (f i)) s is := by
  induction is generalizing s with
  | nil => rfl
  | cons i rest ih =>
      rw [List.map_cons, final_cons, ih, final_cons]

theorem trace_map (m : Transducer state input' output) (f : input -> input')
    (s : state) (is : List input) :
    trace m s (is.map f) = trace (fun s i => m s (f i)) s is := by
  induction is generalizing s with
  | nil => rfl
  | cons i rest ih =>
      rw [List.map_cons, trace_cons, ih, trace_cons]

/-!
## Induction over a run
-/

/--
An invariant over the inputs consumed so far, the state and the outputs emitted
so far holds after every run when it holds at the start and each step from a
state that a run reaches keeps it.
-/
theorem run_induction {m : Transducer state input output} {s0 : state}
    {Inv : List input -> state -> List output -> Prop}
    (hstart : Inv [] s0 [])
    (hstep : forall is i, Inv is (final m s0 is) (trace m s0 is) ->
      Inv (is ++ [i]) (m (final m s0 is) i).1
        (trace m s0 is ++ (m (final m s0 is) i).2))
    (is : List input) :
    Inv is (final m s0 is) (trace m s0 is) := by
  induction is using List.reverseRecOn with
  | nil => exact hstart
  | append_singleton is i ih =>
      rw [final_snoc, trace_snoc]
      exact hstep is i ih

/-!
## Frames of inputs

A machine that decodes each frame into a list of inputs and consumes them in
order runs as the inner machine does on the concatenated inputs.
-/

/-- Consume every input a frame decodes to. -/
def framed (decode : frame -> List input) (m : Transducer state input output) :
    Transducer state frame output :=
  fun s f => (final m s (decode f), trace m s (decode f))

theorem final_framed (decode : frame -> List input)
    (m : Transducer state input output) (s : state) (fs : List frame) :
    final (framed decode m) s fs = final m s (fs.flatMap decode) := by
  induction fs generalizing s with
  | nil => rfl
  | cons f rest ih =>
      rw [final_cons, ih, List.flatMap_cons, final_append]
      rfl

theorem trace_framed (decode : frame -> List input)
    (m : Transducer state input output) (s : state) (fs : List frame) :
    trace (framed decode m) s fs = trace m s (fs.flatMap decode) := by
  induction fs generalizing s with
  | nil => rfl
  | cons f rest ih =>
      rw [trace_cons, ih, List.flatMap_cons, trace_append]
      rfl

/-!
## Projections

A projection follows part of the state of a machine: it selects the inputs that
concern this part and keeps the outputs that come from it.  The other inputs
must neither change the part nor emit kept outputs.
-/

structure Projection (m : Transducer state input output)
    (n : Transducer state' input' output') where
  view : state -> state'
  select : input -> Option input'
  keep : output -> Option output'
  step_selected : forall s i k, select i = some k ->
    n (view s) k = (view (m s i).1, (m s i).2.filterMap keep)
  step_skipped : forall s i, select i = none ->
    view (m s i).1 = view s ∧ (m s i).2.filterMap keep = []

namespace Projection

variable {m : Transducer state input output}
  {n : Transducer state' input' output'}

theorem final_view (p : Projection m n) (s : state) (is : List input) :
    p.view (final m s is) = final n (p.view s) (is.filterMap p.select) := by
  induction is generalizing s with
  | nil => rfl
  | cons i rest ih =>
      cases hsel : p.select i with
      | none =>
          rw [final_cons, ih, List.filterMap_cons_none hsel,
            (p.step_skipped s i hsel).left]
      | some k =>
          rw [final_cons, ih, List.filterMap_cons_some hsel, final_cons,
            p.step_selected s i k hsel]

theorem trace_keep (p : Projection m n) (s : state) (is : List input) :
    (trace m s is).filterMap p.keep =
      trace n (p.view s) (is.filterMap p.select) := by
  induction is generalizing s with
  | nil => rfl
  | cons i rest ih =>
      cases hsel : p.select i with
      | none =>
          have hskip := p.step_skipped s i hsel
          rw [trace_cons, List.filterMap_append, ih,
            List.filterMap_cons_none hsel, hskip.left, hskip.right,
            List.nil_append]
      | some k =>
          rw [trace_cons, List.filterMap_append, ih,
            List.filterMap_cons_some hsel, trace_cons,
            p.step_selected s i k hsel]

/-- Runs that agree on the selected inputs agree on the kept outputs. -/
theorem trace_keep_congr (p : Projection m n) (s : state)
    {is js : List input}
    (h : is.filterMap p.select = js.filterMap p.select) :
    (trace m s is).filterMap p.keep = (trace m s js).filterMap p.keep := by
  rw [p.trace_keep, p.trace_keep, h]

/--
A run over inputs that emit kept outputs only is, output for output, what the
projection keeps of any run with the same selected inputs.
-/
theorem trace_purged (p : Projection m n) (embed : output' -> output)
    (s : state) {is js : List input}
    (hselect : js.filterMap p.select = is.filterMap p.select)
    (honly : forall t j o, j ∈ js -> o ∈ (m t j).2 ->
      (p.keep o).map embed = some o) :
    trace m s js = ((trace m s is).filterMap p.keep).map embed := by
  have hkept : forall o, o ∈ trace m s js ->
      (p.keep o).map embed = some o := by
    intro o ho
    rcases exists_step_of_mem_trace ho with ⟨t, j, hj, hstep⟩
    exact honly t j o hj hstep
  rw [← p.trace_keep_congr s hselect, List.map_filterMap,
    List.filterMap_congr hkept, List.filterMap_some]

end Projection
end Transducer

end Library
end OpenMk3
