import OpenMk3.Library.Transducer

/-!
# Replaying outputs

A consumer applies the outputs of a transducer to a mirror of its state.  The
module provides when a list of outputs brings one observation of the mirror to
a target, and the simulation rule that carries a mirror along a run.
-/

namespace OpenMk3
namespace Library

universe u v

variable {state input output mirror : Type u} {value : Type v}

def replay (apply : mirror -> output -> mirror) (m : mirror)
    (os : List output) : mirror :=
  os.foldl apply m

theorem replay_append (apply : mirror -> output -> mirror) (m : mirror)
    (os os' : List output) :
    replay apply m (os ++ os') = replay apply (replay apply m os) os' :=
  List.foldl_append

/-- An observation at its target stays there while no output moves it away. -/
theorem observe_replay_of_eq {apply : mirror -> output -> mirror}
    (observe : mirror -> value) {target : value} (os : List output)
    (hkeep : forall m o, o ∈ os ->
      observe (apply m o) = observe m ∨ observe (apply m o) = target)
    {m : mirror} (h : observe m = target) :
    observe (replay apply m os) = target := by
  induction os generalizing m with
  | nil => exact h
  | cons o rest ih =>
      apply ih (fun m' o' ho' => hkeep m' o' (List.mem_cons_of_mem o ho'))
      rcases hkeep m o List.mem_cons_self with hsame | htarget
      · rw [hsame, h]
      · exact htarget

/--
When each output leaves an observation alone or brings it to the target, the
replay reaches the target if it is there already or some output sets it.
-/
theorem observe_replay {apply : mirror -> output -> mirror}
    (observe : mirror -> value) {target : value} (os : List output)
    (hkeep : forall m o, o ∈ os ->
      observe (apply m o) = observe m ∨ observe (apply m o) = target)
    {m : mirror}
    (h : observe m = target ∨
      exists o, o ∈ os ∧ forall m', observe (apply m' o) = target) :
    observe (replay apply m os) = target := by
  rcases h with heq | ⟨o, hmem, hset⟩
  · exact observe_replay_of_eq observe os hkeep heq
  · rcases List.append_of_mem hmem with ⟨front, back, hsplit⟩
    subst hsplit
    rw [replay_append]
    apply observe_replay_of_eq observe back
    · intro m' o' ho'
      exact hkeep m' o' (List.mem_append_right front
        (List.mem_cons_of_mem o ho'))
    · exact hset _

/--
A mirror that follows each step from an invariant state follows every run over
admissible inputs.
-/
theorem replay_trace {apply : mirror -> output -> mirror}
    (m : Transducer state input output) (view : state -> mirror)
    {Inv : state -> Prop} {Ok : input -> Prop}
    (hstep : forall s i, Inv s -> Ok i -> Inv (m s i).1 ∧
      replay apply (view s) (m s i).2 = view (m s i).1)
    {s : state} (hs : Inv s) (is : List input)
    (hok : forall i, i ∈ is -> Ok i) :
    Inv (Transducer.final m s is) ∧
      replay apply (view s) (Transducer.trace m s is) =
        view (Transducer.final m s is) := by
  induction is generalizing s with
  | nil => exact ⟨hs, rfl⟩
  | cons i rest ih =>
      have hfirst := hstep s i hs (hok i List.mem_cons_self)
      have hrest := ih hfirst.left
        (fun j hj => hok j (List.mem_cons_of_mem i hj))
      rw [Transducer.trace_cons, Transducer.final_cons, replay_append,
        hfirst.right]
      exact hrest

end Library
end OpenMk3
