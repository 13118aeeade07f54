import OpenMk3.Device.Diff
import OpenMk3.Usb.Queue

/-!
# HID reader

The task of `spawn_hid_reader` keeps four transfers submitted on the HID IN
endpoint and forwards what they deliver over a bounded channel to the diff task.
The kernel completes transfers at any time and in any order.
-/

namespace OpenMk3
namespace Device

open Library Usb

/-- The transfers submitted before the loop. -/
def readerTransfers : Nat := 4

/-- The capacity of the channel of reports. -/
def reportCapacity : Nat := 256

/-- Where the reader task stands. -/
inductive ReaderPhase where
  | filling (left : Nat)
  | waiting
  | sending (data : List UInt8)
  -- After a transfer error, for 50 ms.
  | sleeping
  | submitting
  -- The receiver was dropped while this report was sent.
  | done (data : List UInt8)
deriving DecidableEq, Repr

namespace ReaderPhase

/-- The report that has left the queue and not reached the channel. -/
def hand : ReaderPhase -> List (List UInt8)
  | sending data | done data => [data]
  | _ => []

/-- The transfers that the task has yet to submit. -/
def missing : ReaderPhase -> Nat
  | filling left => left
  | waiting => 0
  | _ => 1

def isDone : ReaderPhase -> Bool
  | done _ => true
  | _ => false

end ReaderPhase

/-- The queue and the task that polls it, the channel, and the diff task at its
other end with what it has consumed and emitted. -/
structure HidPath where
  queue : Queue
  phase : ReaderPhase
  channel : List (List UInt8)
  isOpen : Bool
  consumed : List (List UInt8)
  diff : DiffState
  events : List Event

inductive HidPathAct where
  | task
  | complete (i : Nat) (c : Completion)
  | consume
  | close

/-- The report that a completion delivers. -/
def report? (c : Completion) : Option (List UInt8) :=
  match c.status with
  | none => if c.data ≠ [] then some c.data else none
  | some _ => none

namespace HidPath

def start : HidPath where
  queue := Queue.new
  phase := .filling readerTransfers
  channel := []
  isOpen := true
  consumed := []
  diff := DiffState.default
  events := []

/-- What the loop does with a completion. -/
def afterCompletion (c : Completion) : ReaderPhase :=
  match c.status with
  | none => if c.data ≠ [] then .sending c.data else .submitting
  | some _ => .sleeping

def taskStep (s : HidPath) : Option HidPath :=
  match s.phase with
  | .filling 0 => some { s with phase := .waiting }
  | .filling (left + 1) =>
      some { s with queue := s.queue.submit, phase := .filling left }
  | .waiting =>
      match s.queue.pollNext with
      | (queue, none) => some { s with queue := queue }
      | (queue, some c) => some { s with queue := queue, phase := afterCompletion c }
  | .sending data =>
      if s.isOpen = false then some { s with phase := .done data }
      else if s.channel.length < reportCapacity then
        some { s with channel := s.channel ++ [data], phase := .submitting }
      else none
  | .sleeping => some { s with phase := .submitting }
  | .submitting => some { s with queue := s.queue.submit, phase := .waiting }
  | .done _ => none

/-- The diff task takes the next report from the channel. -/
def consume (opts : OpenOptions) (s : HidPath) : Option HidPath :=
  match s.isOpen, s.channel with
  | true, raw :: rest =>
      some { s with
        channel := rest
        consumed := s.consumed ++ [raw]
        diff := (diffFrame opts s.diff raw).1
        events := s.events ++ (diffFrame opts s.diff raw).2 }
  | _, _ => none

def step (opts : OpenOptions) : Transition HidPath HidPathAct
  | s, .task => s.taskStep
  | s, .complete i c =>
      if s.phase.isDone then none
      else (s.queue.complete i c).map fun queue => { s with queue := queue }
  | s, .consume => s.consume opts
  | s, .close => some { s with isOpen := false }

/-- The transfers are all submitted or about to be, and every report that was
handed back is consumed, in the channel or in the hand of the task, in order. -/
structure InOrder (opts : OpenOptions) (s : HidPath) : Prop where
  queue : s.queue.Ordered
  count : s.queue.pending.length + s.phase.missing = readerTransfers
  reports : s.consumed ++ s.channel ++ s.phase.hand =
    s.queue.returned.filterMap report?
  bounded : s.channel.length ≤ reportCapacity
  diff : s.diff = Transducer.final (diffFrame opts) DiffState.default s.consumed
  events : s.events = Transducer.trace (diffFrame opts) DiffState.default s.consumed

theorem inOrder_start (opts : OpenOptions) : start.InOrder opts where
  queue := Queue.ordered_new
  count := rfl
  reports := rfl
  bounded := Nat.zero_le _
  diff := rfl
  events := rfl

variable {opts : OpenOptions} {s s' : HidPath}

theorem hand_afterCompletion (c : Completion) :
    (afterCompletion c).hand = (report? c).toList ∧
      (afterCompletion c).missing = 1 := by
  unfold afterCompletion report?
  cases c.status with
  | some e => exact ⟨rfl, rfl⟩
  | none =>
      dsimp only
      split <;> exact ⟨rfl, rfl⟩

/-- One more transfer is submitted. -/
theorem InOrder.submit (h : s.InOrder opts) {phase : ReaderPhase}
    (hmissing : phase.missing + 1 = s.phase.missing)
    (hhand : phase.hand = s.phase.hand) :
    InOrder opts { s with queue := s.queue.submit, phase := phase } where
  queue := h.queue.submit
  count := by
    rw [h.queue.submit_eq, List.length_append, List.length_singleton,
      Nat.add_assoc, Nat.add_comm 1, hmissing]
    exact h.count
  reports := by
    rw [hhand, h.queue.submit_eq]
    exact h.reports
  bounded := h.bounded
  diff := h.diff
  events := h.events

theorem InOrder.setPhase (h : s.InOrder opts) {phase : ReaderPhase}
    (hmissing : phase.missing = s.phase.missing)
    (hhand : phase.hand = s.phase.hand) :
    InOrder opts { s with phase := phase } where
  queue := h.queue
  count := hmissing ▸ h.count
  reports := hhand ▸ h.reports
  bounded := h.bounded
  diff := h.diff
  events := h.events

/-- The queue of a task that waits is full, so there is a transfer to poll. -/
theorem InOrder.poll (h : s.InOrder opts) (hphase : s.phase = .waiting)
    (hstep : s.taskStep = some s') : s'.InOrder opts := by
  have hcount : s.queue.pending.length = readerTransfers := by
    have hcount := h.count
    rw [hphase] at hcount
    exact hcount
  have hne : s.queue.pending ≠ [] := by
    intro hnil
    rw [hnil] at hcount
    cases hcount
  have hreports := h.reports
  rw [hphase] at hreports
  unfold taskStep at hstep
  rw [hphase] at hstep
  rcases h.queue.pollNext hne with hpending | ⟨c, rest, hfirst, hpoll, hordered⟩
  · simp only [hpending] at hstep
    cases hstep
    exact h.setPhase (hphase ▸ rfl) (hphase ▸ rfl)
  · rw [hpoll] at hordered
    simp only [hpoll] at hstep
    cases hstep
    rcases hand_afterCompletion c with ⟨hhand, hmissing⟩
    refine
      { queue := hordered
        count := ?_
        reports := ?_
        bounded := h.bounded
        diff := h.diff
        events := h.events }
    · rw [hmissing, ← hcount, hfirst]
      rfl
    · have hreport : [c].filterMap report? = (report? c).toList := by
        cases hc : report? c with
        | none => exact List.filterMap_cons_none hc
        | some data => exact List.filterMap_cons_some hc
      rw [hhand, List.filterMap_append, ← hreports, hreport]
      simp [ReaderPhase.hand]

theorem InOrder.task (h : s.InOrder opts) (hstep : s.taskStep = some s') :
    s'.InOrder opts := by
  unfold taskStep at hstep
  cases hphase : s.phase with
  | filling left =>
      cases left with
      | zero =>
          rw [hphase] at hstep
          cases hstep
          exact h.setPhase (hphase ▸ rfl) (hphase ▸ rfl)
      | succ left =>
          rw [hphase] at hstep
          cases hstep
          exact h.submit (hphase ▸ rfl) (hphase ▸ rfl)
  | waiting => exact h.poll hphase hstep
  | sending data =>
      rw [hphase] at hstep
      dsimp only at hstep
      split at hstep
      · cases hstep
        exact h.setPhase (hphase ▸ rfl) (hphase ▸ rfl)
      · split at hstep
        · next hroom =>
            cases hstep
            exact
              { queue := h.queue
                count := by
                  have hcount := h.count
                  rw [hphase] at hcount
                  exact hcount
                reports := by
                  have hreports := h.reports
                  rw [hphase] at hreports
                  rw [← hreports]
                  simp [ReaderPhase.hand]
                bounded := by
                  rw [List.length_append, List.length_singleton]
                  exact hroom
                diff := h.diff
                events := h.events }
        · cases hstep
  | sleeping =>
      rw [hphase] at hstep
      cases hstep
      exact h.setPhase (hphase ▸ rfl) (hphase ▸ rfl)
  | submitting =>
      rw [hphase] at hstep
      cases hstep
      exact h.submit (hphase ▸ rfl) (hphase ▸ rfl)
  | done data =>
      rw [hphase] at hstep
      cases hstep

theorem InOrder.consume (h : s.InOrder opts)
    (hstep : s.consume opts = some s') : s'.InOrder opts := by
  unfold HidPath.consume at hstep
  split at hstep
  · next raw rest _ hchannel =>
      cases hstep
      have hdiff := h.diff
      have hevents := h.events
      refine
        { queue := h.queue
          count := h.count
          reports := ?_
          bounded := ?_
          diff := ?_
          events := ?_ }
      · rw [← h.reports, hchannel]
        simp
      · have hbounded := h.bounded
        rw [hchannel] at hbounded
        exact Nat.le_of_succ_le hbounded
      · rw [Transducer.final_snoc, ← hdiff]
      · rw [Transducer.trace_snoc, ← hdiff, ← hevents]
  · cases hstep

theorem step_inOrder {a : HidPathAct} (h : s.InOrder opts)
    (hstep : step opts s a = some s') : s'.InOrder opts := by
  cases a with
  | task => exact h.task hstep
  | complete i c =>
      simp only [step] at hstep
      split at hstep
      · cases hstep
      · rcases Option.map_eq_some_iff.mp hstep with ⟨queue, hqueue, rfl⟩
        rcases h.queue.complete hqueue with ⟨hordered, hlength, hreturned⟩
        exact
          { queue := hordered
            count := hlength ▸ h.count
            reports := hreturned ▸ h.reports
            bounded := h.bounded
            diff := h.diff
            events := h.events }
  | consume => exact h.consume hstep
  | close =>
      cases hstep
      exact ⟨h.queue, h.count, h.reports, h.bounded, h.diff, h.events⟩

theorem run_inOrder {actions : List HidPathAct}
    (h : Transition.run (step opts) start actions = some s) : s.InOrder opts :=
  Transition.run_invariant_of_steps (step opts) (fun _ _ => True)
    (inOrder_start opts) (fun _ _ _ hinv _ hs => step_inOrder hinv hs)
    (fun _ _ _ _ _ => trivial) h

/-- Along every interleaving of the reader, the kernel and the diff task: the
queue never panics and holds four transfers whenever the reader waits; what is
handed back in `k`th place is what the kernel reported for the `k`th transfer
submitted; and the events are those of the diff task on the reports delivered by
the successful, non-empty completions in that order, of which one at most is on
its way to the channel. -/
theorem events_of_completions_run {actions : List HidPathAct}
    (h : Transition.run (step opts) start actions = some s) :
    s.queue.panicked = false ∧
    (s.phase = .waiting -> s.queue.pending.length = readerTransfers) ∧
    (forall k c, s.queue.returned[k]? = some c <->
      k < s.queue.returned.length ∧ (k, c) ∈ s.queue.reported) ∧
    s.channel.length ≤ reportCapacity ∧
    (exists hand, hand.length ≤ 1 ∧ s.consumed ++ s.channel ++ hand =
      s.queue.returned.filterMap report?) ∧
    s.events =
      Transducer.trace (diffFrame opts) DiffState.default s.consumed := by
  have hinv := run_inOrder h
  refine ⟨hinv.queue.calm, ?_, hinv.queue.returned_iff, hinv.bounded,
    ⟨s.phase.hand, ?_, hinv.reports⟩, hinv.events⟩
  · intro hwaiting
    have hcount := hinv.count
    rw [hwaiting] at hcount
    exact hcount
  · cases s.phase <;> simp [ReaderPhase.hand]

/-- The second transfer completes before the first, with a hit of another pad. -/
private def overtaken : List HidPathAct :=
  [.task, .task, .task, .task, .task,
    .complete 1 { data := [2, 1, 0, 0x42], status := none }, .task,
    .complete 0 { data := [2, 0, 0, 0x41], status := none }, .task, .task, .task, .task,
    .consume]

theorem events_of_completions_overtaken :
    exists (s : HidPath) (hand : List (List UInt8)),
      Transition.run (step OpenOptions.default) start overtaken = some s ∧
      (0, { data := [2, 0, 0, 0x41], status := none }) ∈ s.queue.reported ∧
      s.consumed ++ s.channel ++ hand = [[2, 0, 0, 0x41], [2, 1, 0, 0x42]] ∧
      s.events = [.pad 0 0x4100 (some 7) .attack] := by
  have hsome : (Transition.run (step OpenOptions.default) start overtaken).isSome =
      true := rfl
  rcases Option.isSome_iff_exists.mp hsome with ⟨s, hs⟩
  have hreturned : (Transition.run (step OpenOptions.default) start overtaken).map
      (fun s => s.queue.returned) =
        some [{ data := [2, 0, 0, 0x41], status := none },
          { data := [2, 1, 0, 0x42], status := none }] := rfl
  have hconsumed : (Transition.run (step OpenOptions.default) start overtaken).map
      HidPath.consumed = some [[2, 0, 0, 0x41]] := rfl
  rw [hs] at hreturned hconsumed
  have hback : s.queue.returned = _ := Option.some.inj hreturned
  rcases events_of_completions_run hs with
    ⟨-, -, hplaces, -, ⟨hand, -, hreports⟩, hevents⟩
  refine ⟨s, hand, hs, ?_, ?_, ?_⟩
  · refine ((hplaces 0 _).mp ?_).right
    rw [hback]
    rfl
  · rw [hreports, hback]
    rfl
  · rw [hevents, Option.some.inj hconsumed]
    rfl

end HidPath

end Device
end OpenMk3
