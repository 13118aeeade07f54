import OpenMk3.Usb.Completions

/-!
# Wakeups

A poll registers its waker before it loads the state byte, and the callback
wakes after it has swapped it.  A task that was told to wait is therefore woken
once its transfer is complete, also when a callback of an earlier request takes
the waker that the poll registered.
-/

namespace OpenMk3
namespace Usb

open Library

namespace Transfer

/-- A task that waits can be woken, and once its transfer is complete it is or
is about to be. -/
structure Awake (s : Transfer) : Prop where
  waker : s.waiting = true ∨ s.owner = .polling ->
    s.waker = true ∨ s.woken = true
  owner : s.waiting = true -> s.owner = .ready ∨ s.owner.serving = false
  idle : s.waiting = true -> s.owner = .ready ->
    forall inner, s.inner = some inner -> inner.state ≠ .idle
  completed : s.waiting = true -> s.owner = .ready ->
    forall inner, s.inner = some inner -> inner.state = .completed ->
      s.woken = true ∨
        (s.waker = true ∧ s.handler = some (.notifying .wake))

theorem awake_new : new.Awake where
  waker h := h.elim nofun nofun
  owner := nofun
  idle := nofun
  completed := nofun

section Steps

variable {s s' : Transfer} {inner : TransferInner}

theorem awake_of_not_waiting (hwaiting : s.waiting = false)
    (howner : s.owner ≠ .polling) : s.Awake := by
  have hno : s.waiting ≠ true := by
    rw [hwaiting]
    nofun
  exact
    { waker := fun h => (h.elim hno howner).elim
      owner := fun h => absurd h hno
      idle := fun h => absurd h hno
      completed := fun h => absurd h hno }

/-- In the middle of a call the task does not wait. -/
theorem Awake.not_waiting (h : s.Awake) {owner : Owner}
    (howner : s.owner = owner) (hne : owner ≠ .ready)
    (hserving : owner.serving = true) : s.waiting = false := by
  rw [← Bool.not_eq_true]
  intro hwaiting
  rcases h.owner hwaiting with hready | hpast
  · exact hne (howner.symm.trans hready)
  · rw [howner, hserving] at hpast
    cases hpast

/-- The owner is past polling. -/
theorem Awake.of_not_serving (h : s.Awake) (hwaiting : s'.waiting = s.waiting)
    (hwaker : s'.waker = s.waker) (hwoken : s'.woken = s.woken)
    (howner : s'.owner.serving = false) : s'.Awake where
  waker hor := by
    rw [hwaker, hwoken]
    rcases hor with hwaits | hpolling
    · exact h.waker (.inl (hwaiting ▸ hwaits))
    · rw [hpolling] at howner
      cases howner
  owner _ := .inr howner
  idle _ hready := by
    rw [hready] at howner
    cases howner
  completed _ hready := by
    rw [hready] at howner
    cases howner

/-- A step of the kernel or the callback before the state byte is swapped. -/
theorem Awake.of_handler (h : s.Awake) {inner' : TransferInner}
    (hinner : s.inner = some inner) (hinner' : s'.inner = some inner')
    (hstate : inner'.state = inner.state) (hwaiting : s'.waiting = s.waiting)
    (hwaker : s'.waker = s.waker) (hwoken : s'.woken = s.woken)
    (howner : s'.owner = s.owner)
    (hhandler : s.handler ≠ some (.notifying .wake)) : s'.Awake where
  waker := by
    rw [hwaiting, howner, hwaker, hwoken]
    exact h.waker
  owner := by
    rw [hwaiting, howner]
    exact h.owner
  idle hwaits hready inner'' hsome := by
    cases hinner'.symm.trans hsome
    rw [hstate]
    exact h.idle (hwaiting ▸ hwaits) (howner ▸ hready) inner hinner
  completed hwaits hready inner'' hsome hcompleted := by
    cases hinner'.symm.trans hsome
    rw [hstate] at hcompleted
    rcases h.completed (hwaiting ▸ hwaits) (howner ▸ hready) inner hinner
      hcompleted with hwake | ⟨-, hwake⟩
    · exact .inl (hwoken.trans hwake)
    · exact absurd hwake hhandler

theorem Awake.submit (h : s.Awake) (hs : s.Sound) (howner : s.owner = .ready)
    (data : RequestBuffer) : (s.submit data).Awake := by
  rcases hs.exists_inner howner nofun with ⟨-, inner, hinner, -⟩
  unfold Transfer.submit
  rw [touch_of_some hinner]
  split
  · next hidle =>
      refine awake_of_not_waiting ?_ nofun
      show s.waiting = false
      rw [← Bool.not_eq_true]
      intro hwaiting
      exact h.idle hwaiting howner inner hinner hidle
  · exact h.of_not_serving rfl rfl rfl rfl

theorem Awake.load (h : s.Awake) (hs : s.Sound) (howner : s.owner = .polling) :
    s.load.Awake := by
  rcases hs.exists_inner howner nofun with ⟨-, inner, hinner, -⟩
  have hwaiting := h.not_waiting howner nofun rfl
  unfold Transfer.load
  rw [touch_of_some hinner]
  cases hstate : inner.state with
  | pending =>
      exact
        { waker := fun _ => h.waker (.inr howner)
          owner := fun _ => .inl rfl
          idle := fun _ _ inner' hsome => by
            cases hinner.symm.trans hsome
            rw [hstate]
            nofun
          completed := fun _ _ inner' hsome hcompleted => by
            cases hinner.symm.trans hsome
            rw [hstate] at hcompleted
            cases hcompleted }
  | _ => exact awake_of_not_waiting hwaiting nofun

/-- After the swap the callback is about to wake whoever is registered. -/
theorem Awake.swapState (h : s.Awake) (hs : s.Sound)
    (hhandler : s.handler = some (.notifying .swapState)) :
    (s.handlerNotify .swapState).Awake := by
  rcases hs.of_holds hhandler rfl with ⟨-, hbusy, inner, hinner⟩
  unfold handlerNotify notify
  rcases (hs.alive inner hinner).of_busy hbusy with
    ⟨-, ⟨hstate, -⟩ | ⟨hstate, hgone⟩⟩
  · simp only [hinner, hstate]
    exact
      { waker := h.waker
        owner := h.owner
        idle := fun _ _ inner' hsome => by
          cases hsome
          nofun
        completed := fun hwaits _ _ _ _ => by
          rcases h.waker (.inl hwaits) with hwaker | hwoken
          · exact .inr ⟨hwaker, rfl⟩
          · exact .inl hwoken }
  · simp only [hinner, hstate]
    refine h.of_not_serving rfl rfl rfl ?_
    show s.owner.serving = false
    rw [hgone]
    rfl

theorem Awake.wake (h : s.Awake) : (s.handlerNotify .wake).Awake where
  waker hor := by
    refine .inr ?_
    show (s.woken || s.waker) = true
    rw [Bool.or_eq_true]
    exact (h.waker hor).symm
  owner := h.owner
  idle := h.idle
  completed hwaits hready _ _ _ := by
    refine .inl ?_
    show (s.woken || s.waker) = true
    rw [Bool.or_eq_true]
    exact (h.waker (.inl hwaits)).symm

theorem Awake.ownerNotify (h : s.Awake) (hs : s.Sound) {n : Notify}
    (howner : s.owner = .notifying n) : (s.ownerNotify n).Awake := by
  rcases hs.exists_inner howner nofun with ⟨-, inner, hinner, hok⟩
  have hwaiting := h.not_waiting howner nofun rfl
  unfold Transfer.ownerNotify notify
  cases n with
  | cloneWaker =>
      simp only [touch_of_some hinner]
      exact awake_of_not_waiting hwaiting nofun
  | swapState =>
      simp only [hinner, hok.left]
      exact awake_of_not_waiting hwaiting nofun
  | wake => exact awake_of_not_waiting hwaiting nofun
  | dropBox => exact hok.elim

theorem Awake.takeCompleted (h : s.Awake) (hs : s.Sound) (hstored : s.Stored)
    (howner : s.owner = .taking) : s.takeCompleted.Awake := by
  rcases hs.exists_inner howner nofun with ⟨-, inner, hinner, -, hbusy⟩
  rcases hstored.holds_of_taking hinner hbusy howner with
    ⟨-, memory, hbuf, hlen⟩
  unfold Transfer.takeCompleted
  rw [exclusive_of_some hinner hbusy]
  simp only [hbuf, hlen, if_true]
  exact awake_of_not_waiting (h.not_waiting howner nofun rfl) nofun

theorem Awake.drop (h : s.Awake) (hs : s.Sound)
    (howner : s.owner = .ready ∨ s.owner = .unwinding) : s.drop.Awake := by
  rcases hs.exists_inner_of_drop howner with ⟨-, inner, hinner, -⟩
  unfold Transfer.drop
  rw [touch_of_some hinner]
  refine h.of_not_serving rfl rfl rfl ?_
  dsimp only
  split <;> rfl

theorem Awake.abandon (h : s.Awake) (hs : s.Sound)
    (howner : s.owner = .abandoning) : s.abandon.Awake := by
  rcases hs.exists_inner howner nofun with ⟨-, inner, hinner, -⟩
  unfold Transfer.abandon
  rw [touch_of_some hinner]
  cases inner.state <;> exact h.of_not_serving rfl rfl rfl rfl

theorem step_awake {a : TransferAct} (hs : s.Sound) (hstored : s.Stored)
    (h : s.Awake) (hstep : step s a = some s') : s'.Awake := by
  cases performed_of_step hstep with
  | submit data howner => exact h.submit hs howner data
  | fill howner =>
      rcases hs.exists_inner howner nofun with ⟨-, inner, hinner, -, hbusy⟩
      unfold fill
      rw [exclusive_of_some hinner hbusy]
      exact awake_of_not_waiting (h.not_waiting howner nofun rfl) nofun
  | rejectLength howner => exact h.of_not_serving rfl rfl rfl rfl
  | accept howner =>
      exact awake_of_not_waiting (h.not_waiting howner nofun rfl) nofun
  | refuse res howner =>
      rcases hs.exists_inner howner nofun with ⟨-, inner, hinner, -, hbusy⟩
      unfold refuse
      rw [exclusive_of_some hinner hbusy]
      exact awake_of_not_waiting (h.not_waiting howner nofun rfl) nofun
  | ownerNotify howner => exact h.ownerNotify hs howner
  | poll howner =>
      rcases hs.exists_inner howner nofun with ⟨-, inner, hinner, -⟩
      unfold poll
      rw [touch_of_some hinner]
      exact
        { waker := fun _ => .inl rfl
          owner := nofun
          idle := nofun
          completed := nofun }
  | load howner => exact h.load hs howner
  | store howner =>
      rcases hs.exists_inner howner nofun with ⟨-, inner, hinner, -⟩
      unfold store
      rw [touch_of_some hinner]
      exact awake_of_not_waiting (h.not_waiting howner nofun rfl) nofun
  | takeCompleted howner => exact h.takeCompleted hs hstored howner
  | cancel howner =>
      rcases hs.exists_inner howner nofun with ⟨-, inner, hinner, -⟩
      unfold cancel
      rw [touch_of_some hinner]
      exact h
  | drop howner => exact h.drop hs howner
  | cancelDropped howner =>
      rcases hs.exists_inner howner nofun with ⟨-, inner, hinner, -⟩
      unfold cancelDropped
      rw [touch_of_some hinner]
      exact h.of_not_serving rfl rfl rfl rfl
  | abandon howner => exact h.abandon hs howner
  | free howner =>
      rcases hs.exists_inner howner nofun with ⟨-, inner, hinner, -⟩
      unfold free freeBox
      rw [touch_of_some hinner]
      exact h.of_not_serving rfl rfl rfl rfl
  | complete result hkernel hhandler _ =>
      rcases hs.exists_inner_of_busy (busy_of_kernel hkernel) with ⟨inner, hinner⟩
      unfold complete
      rw [touch_of_some hinner]
      exact h.of_handler hinner rfl rfl rfl rfl rfl rfl (hhandler ▸ nofun)
  | writeResult hhandler =>
      rcases hs.of_holds hhandler rfl with ⟨-, -, inner, hinner⟩
      unfold writeResult
      rw [touch_of_some hinner]
      exact h.of_handler hinner rfl rfl rfl rfl rfl rfl (hhandler ▸ nofun)
  | @handlerNotify n hhandler =>
      cases n with
      | cloneWaker =>
          rcases hs.of_holds hhandler rfl with ⟨-, -, inner, hinner⟩
          unfold handlerNotify notify
          simp only [touch_of_some hinner]
          exact h.of_handler hinner hinner rfl rfl rfl rfl rfl (hhandler ▸ nofun)
      | swapState => exact h.swapState hs hhandler
      | wake => exact h.wake
      | dropBox =>
          rcases hs.dropBox hhandler with ⟨hgone, hsome⟩
          rcases Option.isSome_iff_exists.mp hsome with ⟨inner, hinner⟩
          unfold handlerNotify notify freeBox
          simp only [touch_of_some hinner]
          refine h.of_not_serving rfl rfl rfl ?_
          show s.owner.serving = false
          rw [hgone]
          rfl

end Steps

/-!
## Runs
-/

/-- Along every interleaving of the handle, the kernel and the event thread: no
access to freed memory and none to shared platform data; no buffer is overwritten
in the box; the only panics are those of a submit or a poll out of turn and of a
submit of too large a request; once the handle is dropped and nobody has the
request, the box is freed with its buffer, unless a submit panicked over a
completed transfer or over its length; and before that it is not. -/
theorem transfer_sound_run {actions : List TransferAct} {s : Transfer}
    (h : Transition.run step new actions = some s) :
    s.fault = false ∧ s.overwritten = false ∧
    (forall p, s.panic = some p ->
      (exists prev, prev ≠ .idle ∧ p = .submit prev) ∨ p = .tooLarge ∨ p = .poll) ∧
    (s.owner = .gone -> s.kernel = none -> s.handler = none ->
      (s.inner = none <-> s.panic ≠ some (.submit .completed) ∧
        s.panic ≠ some .tooLarge)) ∧
    (s.inner = none -> s.owner = .gone ∧ s.kernel = none ∧
      forall c, s.handler = some c -> c = .notifying .wake) := by
  rcases run_sound h with ⟨hs, hstored⟩
  refine ⟨hs.fault, hstored.overwritten, fun p hp => Panic.of_ofCall (hs.panic p hp),
    ?_, hs.of_freed⟩
  intro hgone hkernel hhandler
  rw [← stranded_eq_false_iff]
  constructor
  · intro hnone
    exact (hs.freed hnone).right.right
  · intro hcalm
    exact hs.freed_of_gone hgone hkernel hhandler hcalm

private def fourBytes : RequestBuffer :=
  { memory := [0, 0, 0, 0]
    requested := 4
    fits := by decide }

/-- The handle is dropped while the kernel has the request. -/
private def droppedInFlight : List TransferAct :=
  [.submit fourBytes, .owner, .accept, .drop, .owner, .owner,
    .complete kIOReturnAborted [], .handler, .handler, .handler, .handler]

/-- A submit of a completed transfer panics, and the handle is dropped. -/
private def resubmitted : List TransferAct :=
  [.submit fourBytes, .owner, .accept, .complete kIOReturnSuccess [1, 2], .handler,
    .handler, .handler, .handler, .submit fourBytes, .drop, .owner, .owner]

/-- A run that ends with the handle gone and nobody at work. -/
private theorem exists_end_of_run (actions : List TransferAct) (p : Option Panic)
    (h : (Transition.run step new actions).map
      (fun s => (s.owner, s.kernel, s.handler, s.panic)) = some (.gone, none, none, p)) :
    exists s, Transition.run step new actions = some s ∧ s.owner = .gone ∧
      s.kernel = none ∧ s.handler = none ∧ s.panic = p := by
  rcases Option.map_eq_some_iff.mp h with ⟨s, hs, hend⟩
  simp only [Prod.mk.injEq] at hend
  exact ⟨s, hs, hend⟩

theorem transfer_sound_droppedInFlight :
    (exists s, Transition.run step new droppedInFlight = some s ∧ s.inner = none) ∧
    exists s, Transition.run step new resubmitted = some s ∧
      s.overwritten = false ∧ s.inner ≠ none := by
  constructor
  · rcases exists_end_of_run droppedInFlight none rfl with
      ⟨s, hs, hgone, hkernel, hhandler, hpanic⟩
    rcases transfer_sound_run hs with ⟨-, -, -, hfreed, -⟩
    refine ⟨s, hs, (hfreed hgone hkernel hhandler).mpr ?_⟩
    rw [hpanic]
    exact ⟨nofun, nofun⟩
  · rcases exists_end_of_run resubmitted (some (.submit .completed)) rfl with
      ⟨s, hs, hgone, hkernel, hhandler, hpanic⟩
    rcases transfer_sound_run hs with ⟨-, hkept, -, hfreed, -⟩
    refine ⟨s, hs, hkept, ?_⟩
    intro hnone
    exact ((hfreed hgone hkernel hhandler).mp hnone).left hpanic

theorem run_awake {actions : List TransferAct} {s : Transfer}
    (h : Transition.run step new actions = some s) : s.Awake := by
  have hstart : (new.Sound ∧ new.Stored) ∧ new.Awake :=
    ⟨⟨sound_new, stored_new⟩, awake_new⟩
  have hkeep : forall s a s', ((s.Sound ∧ s.Stored) ∧ s.Awake) -> True ->
      step s a = some s' -> (s'.Sound ∧ s'.Stored) ∧ s'.Awake := by
    rintro s a s' ⟨⟨hs, hstored⟩, hawake⟩ _ hstep
    exact ⟨⟨step_sound hs hstored hstep, step_stored hs hstored hstep⟩,
      step_awake hs hstored hawake hstep⟩
  exact (Transition.run_invariant_of_steps step (fun _ _ => True) hstart hkeep
    (fun _ _ _ _ _ => trivial) h).right

/-- A task that a poll told to wait is woken once its transfer is complete, or
the callback is about to wake it. -/
theorem woken_of_completed_run {actions : List TransferAct} {s : Transfer}
    {inner : TransferInner} (h : Transition.run step new actions = some s)
    (hinner : s.inner = some inner) (hready : s.owner = .ready)
    (hwaiting : s.waiting = true) (hcompleted : inner.state = .completed) :
    s.woken = true ∨
      (s.waker = true ∧ s.handler = some (.notifying .wake)) :=
  (run_awake h).completed hwaiting hready inner hinner hcompleted

/-- The kernel completes after the task was told to wait. -/
private def completedLate : List TransferAct :=
  [.submit fourBytes, .owner, .accept, .poll, .owner,
    .complete kIOReturnSuccess [1, 2], .handler, .handler, .handler]

theorem woken_of_completedLate :
    exists s, Transition.run step new completedLate = some s ∧
      (s.woken = true ∨
        (s.waker = true ∧ s.handler = some (.notifying .wake))) := by
  have hsome : (Transition.run step new completedLate).isSome = true := rfl
  rcases Option.isSome_iff_exists.mp hsome with ⟨s, hs⟩
  have hready : (Transition.run step new completedLate).map
      (fun s => s.owner) = some .ready := rfl
  have hwaiting : (Transition.run step new completedLate).map
      (fun s => s.waiting) = some true := rfl
  have hstate : (Transition.run step new completedLate).bind
      (fun s => s.inner.map TransferInner.state) = some .completed := rfl
  rw [hs] at hready hwaiting hstate
  rcases Option.map_eq_some_iff.mp hstate with ⟨inner, hinner, hcompleted⟩
  exact ⟨s, hs, woken_of_completed_run hs hinner (Option.some.inj hready)
    (Option.some.inj hwaiting) hcompleted⟩

/-- A completed transfer holds the last completion reported. -/
theorem reported_of_completed {s : Transfer} {inner : TransferInner}
    (hs : s.Sound) (hstored : s.Stored) (hinner : s.inner = some inner)
    (hready : s.owner = .ready) (hcompleted : inner.state = .completed) :
    exists memory, inner.platformData.buf = some memory ∧
      inner.platformData.actualLen ≤ memory.length ∧
      s.reported = s.returned ++ [Completion.ofResult inner.platformData.status
        (memory.take inner.platformData.actualLen)] := by
  rcases hs.exists_inner hready nofun with ⟨-, inner', hinner', hok⟩
  cases hinner.symm.trans hinner'
  rw [hcompleted] at hok
  have hin := hstored.alive inner hinner
  have hresult : s.result? inner =
      some (inner.platformData.status, inner.platformData.actualLen) :=
    result?_of_owner (handler_result?_of_not_busy hok.left _)
      (Owner.result?_of_completed hcompleted s.owner)
  rcases hin.result _ hresult with ⟨memory, hbuf, hlen⟩
  refine ⟨memory, hbuf, hlen, ?_⟩
  have hhistory := hin.history (hready ▸ rfl)
  rw [hresult] at hhistory
  rw [hhistory]
  simp [completion, hbuf]

/-- The steps of a poll that finds the transfer completed. -/
theorem run_poll_completed {s : Transfer} {inner : TransferInner}
    (hs : s.Sound) (hstored : s.Stored) (hinner : s.inner = some inner)
    (hready : s.owner = .ready) (hcompleted : inner.state = .completed) :
    exists s', Transition.run step s [.poll, .owner, .owner, .owner] = some s' ∧
      s'.owner = .ready ∧ s'.returned = s.reported := by
  rcases reported_of_completed hs hstored hinner hready hcompleted with
    ⟨memory, hbuf, hlen, hreported⟩
  have hpoll : step s .poll = some
      { s with owner := .polling, waker := true, waiting := false, woken := false } := by
    simp only [step, hready, poll, touch_of_some hinner]
  rw [Transition.run_cons, hpoll, Option.bind_some, Transition.run_cons]
  simp [step, ownerStep, load, store, touch, hinner, hcompleted, Transition.run_cons,
    takeCompleted, exclusive, setState, setData, hbuf, hlen, hreported]

/-- The completions that polls returned are those the kernel reported, in order;
an idle transfer has returned all of them, and a poll of a completed one returns
the one that is left. -/
theorem returned_reported_run {actions : List TransferAct} {s : Transfer}
    {inner : TransferInner} (h : Transition.run step new actions = some s)
    (hinner : s.inner = some inner) (hready : s.owner = .ready) :
    s.returned <+: s.reported ∧
    (inner.state = .idle -> s.returned = s.reported) ∧
    (inner.state = .completed -> s.reported.length = s.returned.length + 1 ∧
      exists s', Transition.run step s [.poll, .owner, .owner, .owner] = some s' ∧
        s'.owner = .ready ∧ s'.returned = s.reported) := by
  rcases run_sound h with ⟨hs, hstored⟩
  rcases hs.exists_inner hready nofun with ⟨-, inner', hinner', hok⟩
  cases hinner.symm.trans hinner'
  refine ⟨hstored.returned, ?_, ?_⟩
  · intro hidle
    rw [hidle] at hok
    have hresult : s.result? inner = none := by
      refine result?_of_owner (handler_result?_of_not_busy hok.left _) ?_
      rw [hready]
      simp [Owner.result?, hidle]
    have hhistory := (hstored.alive inner hinner).history (hready ▸ rfl)
    rw [hresult, Option.map_none, Option.toList_none, List.append_nil] at hhistory
    exact hhistory.symm
  · intro hcompleted
    refine ⟨?_, run_poll_completed hs hstored hinner hready hcompleted⟩
    rcases reported_of_completed hs hstored hinner hready hcompleted with
      ⟨memory, -, -, hreported⟩
    rw [hreported, List.length_append, List.length_singleton]

theorem returned_reported_completedLate :
    exists s s', Transition.run step new completedLate = some s ∧
      Transition.run step s [.poll, .owner, .owner, .owner] = some s' ∧
      s'.returned = s.reported := by
  have hsome : (Transition.run step new completedLate).isSome = true := rfl
  rcases Option.isSome_iff_exists.mp hsome with ⟨s, hs⟩
  have hready : (Transition.run step new completedLate).map
      (fun s => s.owner) = some .ready := rfl
  have hstate : (Transition.run step new completedLate).bind
      (fun s => s.inner.map TransferInner.state) = some .completed := rfl
  rw [hs] at hready hstate
  rcases Option.map_eq_some_iff.mp hstate with ⟨inner, hinner, hcompleted⟩
  rcases (returned_reported_run hs hinner (Option.some.inj hready)).right.right
    hcompleted with ⟨-, s', hrun, -, hreturned⟩
  exact ⟨s, s', hs, hrun, hreturned⟩

end Transfer
end Usb
end OpenMk3
