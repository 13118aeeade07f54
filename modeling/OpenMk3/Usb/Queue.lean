import OpenMk3.Library.InFlight
import OpenMk3.Usb.Wakeups

/-!
# Queues of transfers

A `Queue` keeps the transfers of an endpoint in the order they were submitted
and hands their completions back in that order, whichever way round the kernel
completes them.  It sees a transfer as idle, pending or completed, and every
step of a transfer is a step of that view.
-/

namespace OpenMk3
namespace Usb

open Library

/-- A transfer as its queue sees it. -/
inductive Slot where
  | idle
  | pending
  | completed (c : Completion)
deriving DecidableEq, Repr

namespace Slot

def answer? : Slot -> Option Completion
  | completed c => some c
  | idle | pending => none

end Slot

/-!
## The view of a transfer
-/

namespace Transfer

/-- The result being taken is still the transfer's. -/
def slotOf (s : Transfer) (inner : TransferInner) : Slot :=
  match s.owner, inner.state with
  | .taking, _ | _, .completed =>
      .completed (completion inner
        (inner.platformData.status, inner.platformData.actualLen))
  | _, .idle => .idle
  | _, _ => .pending

/-- The transfer as long as its owner uses it. -/
def slot? (s : Transfer) : Option Slot :=
  if s.owner.serving then s.inner.map s.slotOf else none

/-- The steps of a transfer that its queue can see. -/
inductive SlotStep (s s' : Transfer) : Prop where
  | stutter (hslot : s'.slot? = s.slot?) (hreturned : s'.returned = s.returned)
  | submit (hbefore : s.slot? = some .idle) (hafter : s'.slot? = some .pending)
      (hreturned : s'.returned = s.returned)
  | complete {c : Completion} (hbefore : s.slot? = some .pending)
      (hafter : s'.slot? = some (.completed c))
      (hreported : s'.reported = s'.returned ++ [c])
      (hreturned : s'.returned = s.returned)
  | take {c : Completion} (hbefore : s.slot? = some (.completed c))
      (hafter : s'.slot? = some .idle) (hreturned : s'.returned = s.returned ++ [c])
  | leave (hafter : s'.slot? = none) (hreturned : s'.returned = s.returned)

section View

variable {s s' : Transfer} {inner : TransferInner}

theorem slot?_of_serving (hinner : s.inner = some inner)
    (hserving : s.owner.serving = true) : s.slot? = some (s.slotOf inner) := by
  unfold slot?
  rw [if_pos hserving, hinner]
  rfl

theorem slot?_of_not_serving (hserving : s.owner.serving = false) :
    s.slot? = none := by
  unfold slot?
  rw [hserving]
  rfl

theorem slotOf_of_state (howner : s.owner ≠ .taking) : s.slotOf inner =
    match inner.state with
    | .completed => .completed (completion inner
        (inner.platformData.status, inner.platformData.actualLen))
    | .idle => .idle
    | _ => .pending := by
  unfold slotOf
  cases howner' : s.owner with
  | taking => exact absurd howner' howner
  | _ => cases inner.state <;> rfl

theorem slotOf_of_taking (howner : s.owner = .taking) : s.slotOf inner =
    .completed (completion inner
      (inner.platformData.status, inner.platformData.actualLen)) := by
  unfold slotOf
  rw [howner]

/-- A request that is under way is pending for its queue. -/
theorem slot?_of_pending (hinner : s.inner = some inner)
    (hserving : s.owner.serving = true) (howner : s.owner ≠ .taking)
    (hstate : inner.state = .pending) : s.slot? = some .pending := by
  rw [slot?_of_serving hinner hserving, slotOf_of_state howner, hstate]

theorem slot?_of_completed (hinner : s.inner = some inner)
    (hserving : s.owner.serving = true) (hstate : inner.state = .completed) :
    s.slot? = some (.completed (completion inner
      (inner.platformData.status, inner.platformData.actualLen))) := by
  rw [slot?_of_serving hinner hserving]
  unfold slotOf
  cases s.owner <;> rw [hstate]

/-- While others have the request, the owner at work is not taking a result. -/
theorem Sound.pending_of_busy (h : s.Sound) (hbusy : s.busy = true)
    (hinner : s.inner = some inner) (hserving : s.owner.serving = true) :
    inner.state = .pending ∧ s.owner ≠ .taking := by
  have hok := h.alive inner hinner
  rcases hok.of_busy hbusy with ⟨-, ⟨hstate, -⟩ | ⟨-, hgone⟩⟩
  · refine ⟨hstate, ?_⟩
    intro htaking
    rw [htaking, hstate] at hok
    exact absurd hok.left nofun
  · rw [hgone] at hserving
    cases hserving

/-- A completed transfer holds the completion that was reported last. -/
theorem Stored.reported_of_completed (h : s.Stored) (hs : s.Sound)
    (hinner : s.inner = some inner) (hserving : s.owner.serving = true)
    (hstate : inner.state = .completed) :
    s.reported = s.returned ++ [completion inner
      (inner.platformData.status, inner.platformData.actualLen)] := by
  have hbusy : s.busy = false := by
    rw [← Bool.not_eq_true]
    intro hbusy
    have hpending := (hs.pending_of_busy hbusy hinner hserving).left
    rw [hstate] at hpending
    cases hpending
  have hresult : s.result? inner =
      some (inner.platformData.status, inner.platformData.actualLen) :=
    result?_of_owner (handler_result?_of_not_busy hbusy _)
      (Owner.result?_of_completed hstate s.owner)
  have hhistory := (h.alive inner hinner).history hserving
  rw [hresult] at hhistory
  exact hhistory

theorem slot?_congr (hinner : s.inner = some inner)
    (hinner' : s'.inner = some inner) (hserving : s.owner.serving = true)
    (hserving' : s'.owner.serving = true) (howner : s.owner ≠ .taking)
    (howner' : s'.owner ≠ .taking) : s'.slot? = s.slot? := by
  rw [slot?_of_serving hinner hserving, slot?_of_serving hinner' hserving',
    slotOf_of_state howner, slotOf_of_state howner']

/-- A step on a transfer that stays pending. -/
theorem slotStep_pending {inner' : TransferInner}
    (hinner : s.inner = some inner) (hinner' : s'.inner = some inner')
    (hserving : s.owner.serving = true) (hserving' : s'.owner.serving = true)
    (howner : s.owner ≠ .taking) (howner' : s'.owner ≠ .taking)
    (hstate : inner.state = .pending) (hstate' : inner'.state = .pending)
    (hreturned : s'.returned = s.returned) : SlotStep s s' := by
  refine .stutter ?_ hreturned
  rw [slot?_of_pending hinner hserving howner hstate,
    slot?_of_pending hinner' hserving' howner' hstate']

/-- The owner no longer uses the transfer. -/
theorem slotStep_leave (hserving : s'.owner.serving = false)
    (hreturned : s'.returned = s.returned) : SlotStep s s' :=
  .leave (slot?_of_not_serving hserving) hreturned

/-- A step of the kernel or the callback before the state byte is swapped. -/
theorem slotStep_of_busy {inner' : TransferInner} (hs : s.Sound)
    (hbusy : s.busy = true) (hinner : s.inner = some inner)
    (hinner' : s'.inner = some inner') (hstate : inner'.state = inner.state)
    (howner : s'.owner = s.owner) (hreturned : s'.returned = s.returned) :
    SlotStep s s' := by
  cases hserving : s.owner.serving with
  | false => exact slotStep_leave (howner ▸ hserving) hreturned
  | true =>
      rcases hs.pending_of_busy hbusy hinner hserving with ⟨hpending, hother⟩
      exact slotStep_pending hinner hinner' hserving (howner ▸ hserving) hother
        (howner ▸ hother) hpending (hstate.trans hpending) hreturned

theorem slotStep_submit (hs : s.Sound) (data : RequestBuffer)
    (howner : s.owner = .ready) : SlotStep s (s.submit data) := by
  rcases hs.exists_inner howner nofun with ⟨-, inner, hinner, -⟩
  have hready : s.owner ≠ .taking := howner ▸ nofun
  unfold submit
  rw [touch_of_some hinner]
  split
  · next hidle =>
      refine .submit ?_ (slot?_of_pending rfl rfl nofun rfl) rfl
      rw [slot?_of_serving hinner (howner ▸ rfl), slotOf_of_state hready, hidle]
  · exact slotStep_leave rfl rfl

theorem slotStep_ownerNotify (hs : s.Sound) (hstored : s.Stored)
    {n : Notify} (howner : s.owner = .notifying n) :
    SlotStep s (s.ownerNotify n) := by
  rcases hs.exists_inner howner nofun with ⟨-, inner, hinner, hok⟩
  have hserving : s.owner.serving = true := howner ▸ rfl
  have hother : s.owner ≠ .taking := howner ▸ nofun
  have hs' := hs.ownerNotify howner
  have hstored' := hstored.ownerNotify hs howner
  cases n with
  | cloneWaker =>
      unfold ownerNotify notify
      simp only [touch_of_some hinner]
      exact slotStep_pending hinner hinner hserving rfl hother nofun hok.left
        hok.left rfl
  | swapState =>
      have hnext : s.ownerNotify .swapState =
          { s.setState inner .completed with owner := .notifying .wake } := by
        unfold ownerNotify notify
        simp only [hinner, hok.left]
        rfl
      rw [hnext] at hs' hstored' ⊢
      exact .complete (slot?_of_pending hinner hserving hother hok.left)
        (slot?_of_completed rfl rfl rfl)
        (hstored'.reported_of_completed hs' rfl rfl rfl) rfl
  | wake =>
      exact .stutter (slot?_congr hinner hinner hserving rfl hother nofun) rfl
  | dropBox => exact hok.elim

theorem slotStep_load (hs : s.Sound)
    (howner : s.owner = .polling) : SlotStep s s.load := by
  rcases hs.exists_inner howner nofun with ⟨-, inner, hinner, -⟩
  have hserving : s.owner.serving = true := howner ▸ rfl
  have hother : s.owner ≠ .taking := howner ▸ nofun
  unfold load
  rw [touch_of_some hinner]
  cases inner.state with
  | pending =>
      exact .stutter (slot?_congr hinner hinner hserving rfl hother nofun) rfl
  | completed =>
      exact .stutter (slot?_congr hinner hinner hserving rfl hother nofun) rfl
  | _ => exact slotStep_leave rfl rfl

theorem slotStep_takeCompleted (hs : s.Sound)
    (hstored : s.Stored) (howner : s.owner = .taking) :
    SlotStep s s.takeCompleted := by
  rcases hs.exists_inner howner nofun with ⟨-, inner, hinner, hstate, hbusy⟩
  rcases hstored.holds_of_taking hinner hbusy howner with ⟨-, memory, hbuf, hlen⟩
  have hbefore : s.slot? = some (.completed (Completion.ofResult
      inner.platformData.status (memory.take inner.platformData.actualLen))) := by
    rw [slot?_of_serving hinner (howner ▸ rfl), slotOf_of_taking howner]
    simp [completion, hbuf]
  unfold takeCompleted
  rw [exclusive_of_some hinner hbusy]
  simp only [hbuf, hlen, if_true]
  have hready : Owner.ready ≠ .taking := by
    intro h
    cases h
  refine .take hbefore ?_ rfl
  rw [slot?_of_serving rfl rfl, slotOf_of_state hready]
  simp only [hstate]

theorem notify_owner_returned (s : Transfer) (n : Notify) :
    (s.notify n).fst.owner = s.owner ∧ (s.notify n).fst.returned = s.returned := by
  unfold notify freeBox touch
  cases n with
  | cloneWaker => cases s.inner <;> exact ⟨rfl, rfl⟩
  | swapState =>
      cases s.inner with
      | none => exact ⟨rfl, rfl⟩
      | some inner =>
          dsimp only
          cases inner.state <;> exact ⟨rfl, rfl⟩
  | wake => exact ⟨rfl, rfl⟩
  | dropBox => cases s.inner <;> exact ⟨rfl, rfl⟩

theorem slotStep_handlerNotify (hs : s.Sound) (hstored : s.Stored) {n : Notify}
    (hhandler : s.handler = some (.notifying n)) :
    SlotStep s (s.handlerNotify n) := by
  rcases s.notify_owner_returned n with ⟨howner, hreturned⟩
  cases hserving : s.owner.serving with
  | false =>
      refine slotStep_leave ?_ hreturned
      show (s.notify n).fst.owner.serving = false
      rw [howner, hserving]
  | true =>
      cases n with
      | cloneWaker =>
          rcases hs.of_holds hhandler rfl with ⟨-, hbusy, inner, hinner⟩
          unfold handlerNotify notify
          simp only [touch_of_some hinner]
          exact slotStep_of_busy hs hbusy hinner hinner rfl rfl rfl
      | swapState =>
          rcases hs.of_holds hhandler rfl with ⟨-, hbusy, inner, hinner⟩
          rcases hs.pending_of_busy hbusy hinner hserving with ⟨hstate, hother⟩
          have hs' := hs.swapState hhandler
          have hstored' := hstored.handlerNotify hs hhandler
          have hnext : s.handlerNotify .swapState =
              { s.setState inner .completed with
                handler := some (.notifying .wake) } := by
            unfold handlerNotify notify
            simp only [hinner, hstate]
            rfl
          rw [hnext] at hs' hstored' ⊢
          exact .complete (slot?_of_pending hinner hserving hother hstate)
            (slot?_of_completed rfl hserving rfl)
            (hstored'.reported_of_completed hs' rfl hserving rfl) rfl
      | wake => exact .stutter rfl rfl
      | dropBox =>
          rw [(hs.dropBox hhandler).left] at hserving
          cases hserving

/-- Every step of a transfer is a step of the view its queue has, or leaves the
view alone. -/
theorem slotStep_of_step {a : TransferAct} (hs : s.Sound) (hstored : s.Stored)
    (hstep : step s a = some s') : SlotStep s s' := by
  cases performed_of_step hstep with
  | submit data howner => exact slotStep_submit hs data howner
  | fill howner =>
      rcases hs.exists_inner howner nofun with ⟨-, inner, hinner, hstate, hbusy⟩
      unfold fill
      rw [exclusive_of_some hinner hbusy]
      exact slotStep_pending hinner rfl (howner ▸ rfl) rfl (howner ▸ nofun) nofun
        hstate hstate rfl
  | rejectLength howner => exact slotStep_leave rfl rfl
  | accept howner =>
      rcases hs.exists_inner howner nofun with ⟨-, inner, hinner, -⟩
      exact .stutter (slot?_congr hinner hinner (howner ▸ rfl) rfl (howner ▸ nofun)
        nofun) rfl
  | refuse res howner =>
      rcases hs.exists_inner howner nofun with ⟨-, inner, hinner, hstate, hbusy⟩
      unfold refuse
      rw [exclusive_of_some hinner hbusy]
      exact slotStep_pending hinner rfl (howner ▸ rfl) rfl (howner ▸ nofun) nofun
        hstate hstate rfl
  | ownerNotify howner => exact slotStep_ownerNotify hs hstored howner
  | poll howner =>
      rcases hs.exists_inner howner nofun with ⟨-, inner, hinner, -⟩
      unfold poll
      rw [touch_of_some hinner]
      exact .stutter (slot?_congr hinner hinner (howner ▸ rfl) rfl (howner ▸ nofun)
        nofun) rfl
  | load howner => exact slotStep_load hs howner
  | store howner =>
      rcases hs.exists_inner howner nofun with ⟨-, inner, hinner, hstate, -⟩
      unfold store
      rw [touch_of_some hinner]
      refine .stutter ?_ rfl
      rw [slot?_of_completed hinner (howner ▸ rfl) hstate,
        slot?_of_serving rfl rfl, slotOf_of_taking rfl]
      rfl
  | takeCompleted howner => exact slotStep_takeCompleted hs hstored howner
  | cancel howner =>
      rcases hs.exists_inner howner nofun with ⟨-, inner, hinner, -⟩
      unfold cancel
      rw [touch_of_some hinner]
      exact .stutter rfl rfl
  | drop howner =>
      rcases hs.exists_inner_of_drop howner with ⟨-, inner, hinner, -⟩
      unfold drop
      rw [touch_of_some hinner]
      refine slotStep_leave ?_ rfl
      dsimp only
      split <;> rfl
  | cancelDropped howner =>
      rcases hs.exists_inner howner nofun with ⟨-, inner, hinner, -⟩
      unfold cancelDropped
      rw [touch_of_some hinner]
      exact slotStep_leave rfl rfl
  | abandon howner =>
      rcases hs.exists_inner howner nofun with ⟨-, inner, hinner, -⟩
      unfold abandon
      rw [touch_of_some hinner]
      cases inner.state <;> exact slotStep_leave rfl rfl
  | free howner =>
      rcases hs.exists_inner howner nofun with ⟨-, inner, hinner, -⟩
      unfold free freeBox
      rw [touch_of_some hinner]
      exact slotStep_leave rfl rfl
  | complete result hkernel _ _ =>
      have hbusy := busy_of_kernel hkernel
      rcases hs.exists_inner_of_busy hbusy with ⟨inner, hinner⟩
      unfold complete
      rw [touch_of_some hinner]
      exact slotStep_of_busy hs hbusy hinner rfl rfl rfl rfl
  | writeResult hhandler =>
      rcases hs.of_holds hhandler rfl with ⟨-, hbusy, inner, hinner⟩
      unfold writeResult
      rw [touch_of_some hinner]
      exact slotStep_of_busy hs hbusy hinner rfl rfl rfl rfl
  | handlerNotify hhandler => exact slotStep_handlerNotify hs hstored hhandler

/-- In every run, whichever of the owner, the kernel and the callback steps next,
the queue sees nothing, or one transition of the slot: to pending by a submit, to
the completion that was reported by the kernel, back to idle by the poll that
returns it. -/
theorem slot_transition_run {actions : List TransferAct} {a : TransferAct}
    (h : Transition.run step new actions = some s) (hstep : step s a = some s') :
    SlotStep s s' := by
  rcases run_sound h with ⟨hs, hstored⟩
  exact slotStep_of_step hs hstored hstep

end View

/-- The swap of the state byte by the callback is the completion. -/
theorem slot_transition_swap :
    exists s s' : Transfer, SlotStep s s' ∧ s.slot? = some .pending ∧
      s'.slot? = some (.completed { data := [1, 2], status := none }) := by
  let buffer : RequestBuffer :=
    { memory := [0, 0, 0, 0]
      requested := 4
      fits := by decide }
  let actions : List TransferAct :=
    [.submit buffer, .owner, .accept, .complete kIOReturnSuccess [1, 2], .handler,
      .handler]
  have hsome : (Transition.run step new (actions ++ [.handler])).isSome = true := rfl
  rcases Option.isSome_iff_exists.mp hsome with ⟨s', hs'⟩
  have hrun := hs'
  rw [Transition.run_snoc] at hrun
  rcases Option.bind_eq_some_iff.mp hrun with ⟨s, hs, hstep⟩
  have hbefore : (Transition.run step new actions).map slot? =
      some (some .pending) := rfl
  have hafter : (Transition.run step new (actions ++ [.handler])).map slot? =
      some (some (.completed { data := [1, 2], status := none })) := rfl
  rw [hs] at hbefore
  rw [hs'] at hafter
  exact ⟨s, s', slot_transition_run hs hstep, Option.some.inj hbefore,
    Option.some.inj hafter⟩

end Transfer

/-!
## The queue
-/

/-- The pending transfers, the idle one kept for reuse, the completions handed
back, and all that were reported, by the number of the request. -/
structure Queue where
  pending : List Slot
  cached : Option Slot
  returned : List Completion
  reported : List (Nat × Completion)
  panicked : Bool

namespace Queue

def new : Queue where
  pending := []
  cached := none
  returned := []
  reported := []
  panicked := false

/-- The transfer that is submitted must be idle. -/
def submit (q : Queue) : Queue :=
  match q.cached.getD .idle with
  | .idle => { q with pending := q.pending ++ [.pending], cached := none }
  | _ => { q with panicked := true }

/-- The completion of the first pending transfer, once it has one. -/
def pollNext (q : Queue) : Queue × Option Completion :=
  match q.pending with
  | [] => ({ q with panicked := true }, none)
  | .pending :: _ => (q, none)
  | .completed c :: rest =>
      ({ q with
          pending := rest
          cached := some .idle
          returned := q.returned ++ [c] }, some c)
  | .idle :: _ => ({ q with panicked := true }, none)

/-- The kernel completes one of the pending transfers. -/
def complete (q : Queue) (i : Nat) (c : Completion) : Option Queue :=
  match q.pending[i]? with
  | some .pending =>
      some { q with
        pending := q.pending.set i (.completed c)
        reported := q.reported ++ [(q.returned.length + i, c)] }
  | _ => none

def flight (q : Queue) : InFlight Completion :=
  { returned := q.returned
    pending := q.pending.map Slot.answer?
    reported := q.reported }

/-- The transfers are in the states that their place in the queue asks for, and
completions are handed back under the number they were reported for. -/
structure Ordered (q : Queue) : Prop where
  calm : q.panicked = false
  pending : Slot.idle ∉ q.pending
  cached : q.cached.getD .idle = .idle
  faithful : q.flight.Faithful

theorem ordered_new : new.Ordered where
  calm := rfl
  pending := List.not_mem_nil
  cached := rfl
  faithful := InFlight.faithful_empty

variable {q q' : Queue}

theorem Ordered.submit_eq (h : q.Ordered) :
    q.submit = { q with pending := q.pending ++ [.pending], cached := none } := by
  unfold Queue.submit
  rw [h.cached]

theorem Ordered.submit (h : q.Ordered) : q.submit.Ordered := by
  rw [h.submit_eq]
  refine ⟨h.calm, ?_, rfl, ?_⟩
  · intro hidle
    rcases List.mem_append.mp hidle with hold | hnew
    · exact h.pending hold
    · cases List.mem_singleton.mp hnew
  · have hflight : flight
        { q with pending := q.pending ++ [.pending], cached := none } =
        q.flight.issue := by
      unfold flight InFlight.issue
      rw [List.map_append]
      rfl
    rw [hflight]
    exact h.faithful.issue

theorem Ordered.complete (h : q.Ordered) {i : Nat} {c : Completion}
    (hcomplete : q.complete i c = some q') :
    q'.Ordered ∧ q'.pending.length = q.pending.length ∧
      q'.returned = q.returned := by
  unfold Queue.complete at hcomplete
  split at hcomplete
  · next hpending =>
      cases hcomplete
      refine ⟨⟨h.calm, ?_, h.cached, ?_⟩, List.length_set, rfl⟩
      · intro hidle
        rcases List.mem_or_eq_of_mem_set hidle with hold | hnew
        · exact h.pending hold
        · cases hnew
      · have hflight : flight
            { q with
              pending := q.pending.set i (.completed c)
              reported := q.reported ++ [(q.returned.length + i, c)] } =
            q.flight.report i c := by
          unfold flight InFlight.report
          rw [List.map_set]
          rfl
        rw [hflight]
        refine h.faithful.report c ?_
        show (q.pending.map Slot.answer?)[i]? = some none
        rw [List.getElem?_map, hpending]
        rfl
  · cases hcomplete

/-- A queue with a pending transfer waits for it or hands its completion back. -/
theorem Ordered.pollNext (h : q.Ordered) (hne : q.pending ≠ []) :
    (q.pollNext = (q, none)) ∨
      exists c rest, q.pending = .completed c :: rest ∧
        q.pollNext = ({ q with
          pending := rest
          cached := some .idle
          returned := q.returned ++ [c] }, some c) ∧
        q.pollNext.fst.Ordered := by
  unfold Queue.pollNext
  cases hpending : q.pending with
  | nil => exact absurd hpending hne
  | cons first rest =>
      cases first with
      | idle =>
          exact absurd (hpending ▸ List.mem_cons_self) h.pending
      | pending => exact .inl rfl
      | completed c =>
          refine .inr ⟨c, rest, rfl, rfl, h.calm, ?_, rfl, ?_⟩
          · intro hidle
            exact h.pending (hpending ▸ List.mem_cons_of_mem _ hidle)
          · have hfirst : q.flight.pending = some c :: rest.map Slot.answer? := by
              show q.pending.map Slot.answer? = _
              rw [hpending]
              rfl
            exact h.faithful.handBack hfirst

/-- What is handed back in `k`th place is what was reported for the `k`th
request submitted. -/
theorem Ordered.returned_iff (h : q.Ordered) (k : Nat) (c : Completion) :
    q.returned[k]? = some c <->
      k < q.returned.length ∧ (k, c) ∈ q.reported :=
  h.faithful.returned_iff k c

end Queue
end Usb
end OpenMk3
