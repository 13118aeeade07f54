import OpenMk3.Dext.Frames
import OpenMk3.Library.Transition

/-!
# HID reports on their way in

The IN side of the HID transport with its user clients: the one read that is in
flight, `HandleHidInComplete`, `AttachClient` and `DetachClient`, and what
`DeliverHidIn` pushes to the callback of a client.  The clients come, go and register
callbacks between any two steps of the handler.
-/

namespace OpenMk3
namespace Dext

open Library

def kIOReturnAborted : KernReturn := 0xe00002eb

def hidInPacketMax : Nat := 64

/-- `MaschineHidInEvent`, packed, on both sides of the user client. -/
structure HidInEvent where
  length : UInt32
  seq : UInt32
  timestamp : UInt64
  data : List UInt8
deriving DecidableEq

namespace HidInEvent

def bytes (e : HidInEvent) : List UInt8 :=
  leBytes 4 e.length.toNat ++ (leBytes 4 e.seq.toNat ++
    (leBytes 8 e.timestamp.toNat ++ e.data))

/-- The `scalars` of `DeliverHidIn`, into which the event is copied. -/
def scalars (e : HidInEvent) : List UInt64 := toWords 10 e.bytes

/-- The event that the client finds in the arguments of the callback. -/
def ofScalars (words : List UInt64) : HidInEvent :=
  let memory := ofWords words
  let fromSeq := memory.drop 4
  let fromTimestamp := fromSeq.drop 4
  let fromData := fromTimestamp.drop 8
  { length := UInt32.ofNat (leNat (memory.take 4))
    seq := UInt32.ofNat (leNat (fromSeq.take 4))
    timestamp := UInt64.ofNat (leNat (fromTimestamp.take 8))
    data := fromData.take 64 }

theorem bytes_length {e : HidInEvent} (h : e.data.length = 64) : e.bytes.length = 80 := by
  unfold bytes
  simp [h]

theorem ofScalars_scalars {e : HidInEvent} (h : e.data.length = 64) :
    ofScalars e.scalars = e := by
  have hlength : e.length.toNat < 256 ^ 4 := e.length.toNat_lt
  have hseq : e.seq.toNat < 256 ^ 4 := e.seq.toNat_lt
  have htimestamp : e.timestamp.toNat < 256 ^ 8 := e.timestamp.toNat_lt
  unfold ofScalars scalars
  rw [ofWords_toWords (bytes_length h)]
  unfold bytes
  simp only [List.take_left' (leBytes_length ..), List.drop_left' (leBytes_length ..),
    leNat_leBytes hlength, leNat_leBytes hseq, leNat_leBytes htimestamp,
    UInt32.ofNat_toNat, UInt64.ofNat_toNat, List.take_of_length_le (Nat.le_of_eq h)]

end HidInEvent

/-- Where `HandleHidInComplete` stands: before `DeliverHidIn` of the client it has
read, or before it queues the next read. -/
inductive InHandler where
  | idle
  | delivering (client : Option Nat) (seq count : UInt32) (timestamp : UInt64)
  | requeueing
deriving DecidableEq

/-- A read that completed with bytes. -/
structure InReport where
  buffer : List UInt8
  count : UInt32
  timestamp : UInt64
deriving DecidableEq

/-- The instance variables of the transport and of its clients, the latter by the
number of the client; the reads in flight; and what was reported and pushed.  A
client that has stopped is no longer `bound`. -/
structure HidIn where
  running : Bool
  inFlight : Nat
  inBuf : List UInt8
  handler : InHandler
  seqCounter : UInt32
  userClient : Option Nat
  bound : Nat -> Bool
  hidInCompletion : Nat -> Option Nat
  reports : List InReport
  pushed : List (Nat × List UInt64)

inductive HidInAct where
  | startClient (c : Nat)
  | stopClient (c : Nat)
  | registerCallback (c action : Nat)
  -- The device writes the buffer of the read.
  | receive (bytes : List UInt8)
  | complete (status : KernReturn) (count : UInt32) (timestamp : UInt64)
  | deliver (range : KernReturn)
  | requeue (ret : KernReturn)
  -- `Stop` of the transport, on the queue of the handler.
  | stop

namespace HidIn

/-- The transport after a successful `Start`. -/
def started : HidIn where
  running := true
  inFlight := 1
  inBuf := List.replicate hidInPacketMax 0
  handler := .idle
  seqCounter := 0
  userClient := none
  bound _ := false
  hidInCompletion _ := none
  reports := []
  pushed := []

/-- The event of `DeliverHidIn`. -/
def event (bytes : List UInt8) (length seq : UInt32) (timestamp : UInt64) :
    HidInEvent :=
  let clamped := if length > 64 then 64 else length
  { length := clamped
    seq := seq
    timestamp := timestamp
    data := bytes.take clamped.toNat ++ List.replicate (64 - clamped.toNat) 0 }

variable (s : HidIn)

/-- `DetachClient`, and the rest of `Stop` of the client. -/
def detach (c : Nat) : HidIn :=
  { s with
    userClient := if s.userClient = some c then none else s.userClient
    bound := Function.update s.bound c false
    hidInCompletion := Function.update s.hidInCompletion c none }

/-- A completion with bytes: it is counted, and the client is read. -/
def report (count : UInt32) (timestamp : UInt64) : HidIn :=
  { s with
    inFlight := s.inFlight - 1
    seqCounter := s.seqCounter + 1
    handler := .delivering s.userClient (s.seqCounter + 1) count timestamp
    reports := s.reports ++ [{ buffer := s.inBuf, count := count, timestamp := timestamp }] }

/-- What the handler makes of a completion, up to the calls it makes. -/
def completed (status : KernReturn) (count : UInt32) (timestamp : UInt64) : HidIn :=
  if status = kIOReturnAborted then { s with inFlight := s.inFlight - 1 }
  else if status = kIOReturnSuccess ∧ count > 0 then s.report count timestamp
  else { s with inFlight := s.inFlight - 1, handler := .requeueing }

/-- `DeliverHidIn` of a client. -/
def push (client : Nat) (seq count : UInt32) (timestamp : UInt64) : HidIn :=
  match s.hidInCompletion client with
  | some action =>
      { s with
        pushed := s.pushed ++ [(action, (event s.inBuf count seq timestamp).scalars)] }
  | none => s

def step : Transition HidIn HidInAct
  | s, .startClient c =>
      if s.bound c then none
      else
        some { s with bound := Function.update s.bound c true, userClient := some c }
  | s, .stopClient c => if s.bound c then some (s.detach c) else none
  | s, .registerCallback c action =>
      if s.bound c then
        some { s with
          hidInCompletion := Function.update s.hidInCompletion c (some action) }
      else some s
  | s, .receive bytes =>
      if 0 < s.inFlight ∧ bytes.length = hidInPacketMax then
        some { s with inBuf := bytes }
      else none
  | s, .complete status count timestamp =>
      match s.handler with
      | .idle => if 0 < s.inFlight then some (s.completed status count timestamp) else none
      | _ => none
  | s, .deliver range =>
      match s.handler with
      | .delivering client seq count timestamp =>
          let s' := { s with handler := .requeueing }
          match client with
          | some c =>
              if s.running ∧ range = kIOReturnSuccess then
                some (s'.push c seq count timestamp)
              else some s'
          | none => some s'
      | _ => none
  | s, .requeue ret =>
      match s.handler with
      | .requeueing =>
          let s' := { s with handler := .idle }
          if s.running ∧ ret = kIOReturnSuccess then
            some { s' with inFlight := s'.inFlight + 1 }
          else some s'
      | _ => none
  | s, .stop =>
      match s.handler with
      | .idle => some { s with running := false }
      | _ => none

/-- What each action does when it is enabled. -/
inductive Performed (s : HidIn) : HidInAct -> HidIn -> Prop where
  | startClient {c : Nat} (hbound : s.bound c = false) :
      Performed s (.startClient c)
        { s with bound := Function.update s.bound c true, userClient := some c }
  | stopClient {c : Nat} (hbound : s.bound c = true) :
      Performed s (.stopClient c) (s.detach c)
  | registerCallback {c : Nat} (action : Nat) (hbound : s.bound c = true) :
      Performed s (.registerCallback c action)
        { s with hidInCompletion := Function.update s.hidInCompletion c (some action) }
  | unsupported {c : Nat} (action : Nat) (hbound : s.bound c = false) :
      Performed s (.registerCallback c action) s
  | receive {bytes : List UInt8} (hflight : 0 < s.inFlight)
      (hlength : bytes.length = hidInPacketMax) :
      Performed s (.receive bytes) { s with inBuf := bytes }
  | aborted (count : UInt32) (timestamp : UInt64) (hhandler : s.handler = .idle)
      (hflight : 0 < s.inFlight) :
      Performed s (.complete kIOReturnAborted count timestamp)
        { s with inFlight := s.inFlight - 1 }
  | reported {count : UInt32} (timestamp : UInt64) (hhandler : s.handler = .idle)
      (hflight : 0 < s.inFlight) (hcount : count > 0) :
      Performed s (.complete kIOReturnSuccess count timestamp) (s.report count timestamp)
  | failed {status : KernReturn} {count : UInt32} (timestamp : UInt64)
      (hhandler : s.handler = .idle) (hflight : 0 < s.inFlight)
      (hstatus : status ≠ kIOReturnAborted) :
      Performed s (.complete status count timestamp)
        { s with inFlight := s.inFlight - 1, handler := .requeueing }
  | delivered {c : Nat} {seq count : UInt32} {timestamp : UInt64}
      (hhandler : s.handler = .delivering (some c) seq count timestamp)
      (hrunning : s.running = true) :
      Performed s (.deliver kIOReturnSuccess)
        ({ s with handler := .requeueing }.push c seq count timestamp)
  | undelivered {client : Option Nat} {seq count : UInt32} {timestamp : UInt64}
      (range : KernReturn)
      (hhandler : s.handler = .delivering client seq count timestamp)
      (hskip : client = none ∨ s.running = false ∨ range ≠ kIOReturnSuccess) :
      Performed s (.deliver range) { s with handler := .requeueing }
  | requeued (hhandler : s.handler = .requeueing) (hrunning : s.running = true) :
      Performed s (.requeue kIOReturnSuccess)
        { s with handler := .idle, inFlight := s.inFlight + 1 }
  | givenUp (ret : KernReturn) (hhandler : s.handler = .requeueing)
      (hret : s.running = false ∨ ret ≠ kIOReturnSuccess) :
      Performed s (.requeue ret) { s with handler := .idle }
  | stop (hhandler : s.handler = .idle) :
      Performed s .stop { s with running := false }

theorem performed_of_step {s s' : HidIn} {a : HidInAct} (h : step s a = some s') :
    Performed s a s' := by
  cases a with
  | startClient c =>
      cases hbound : s.bound c <;> simp [step, hbound] at h
      subst h
      exact .startClient hbound
  | stopClient c =>
      cases hbound : s.bound c <;> simp [step, hbound] at h
      subst h
      exact .stopClient hbound
  | registerCallback c action =>
      cases hbound : s.bound c <;> simp [step, hbound] at h
      · subst h
        exact .unsupported action hbound
      · subst h
        exact .registerCallback action hbound
  | receive bytes =>
      simp only [step] at h
      split at h
      · next hguard =>
          cases h
          exact .receive hguard.left hguard.right
      · cases h
  | complete status count timestamp =>
      simp only [step] at h
      split at h
      · next hhandler =>
          split at h
          · next hflight =>
              cases h
              unfold completed
              split
              · next hstatus =>
                  rw [hstatus]
                  exact .aborted count timestamp hhandler hflight
              · next hstatus =>
                  split
                  · next hguard =>
                      rw [hguard.left]
                      exact .reported timestamp hhandler hflight hguard.right
                  · exact .failed timestamp hhandler hflight hstatus
          · cases h
      · cases h
  | deliver range =>
      simp only [step] at h
      split at h
      · next client seq count timestamp hhandler =>
          cases client with
          | none =>
              cases h
              exact .undelivered range hhandler (.inl rfl)
          | some c =>
              dsimp only at h
              split at h
              · next hguard =>
                  cases h
                  rw [hguard.right]
                  exact .delivered hhandler hguard.left
              · next hguard =>
                  cases h
                  refine .undelivered range hhandler (.inr ?_)
                  rcases not_and_or.mp hguard with hrunning | hrange
                  · exact .inl (eq_false_of_ne_true hrunning)
                  · exact .inr hrange
      · cases h
  | requeue ret =>
      simp only [step] at h
      split at h
      · next hhandler =>
          split at h
          · next hguard =>
              cases h
              rw [hguard.right]
              exact .requeued hhandler hguard.left
          · next hguard =>
              cases h
              refine .givenUp ret hhandler ?_
              rcases not_and_or.mp hguard with hrunning | hret
              · exact .inl (eq_false_of_ne_true hrunning)
              · exact .inr hret
      · cases h
  | stop =>
      simp only [step] at h
      split at h
      · next hhandler =>
          cases h
          exact .stop hhandler
      · cases h

/-!
## The read and its handler
-/

/-- Whether the read is with the handler. -/
def held (h : InHandler) : Nat :=
  match h with
  | .idle => 0
  | _ => 1

/-- The event of the report with this index. -/
def eventOf (k : Nat) (r : InReport) : HidInEvent :=
  event r.buffer r.count (UInt32.ofNat (k + 1)) r.timestamp

/-- The reports that the handler is done with. -/
def settled : List InReport :=
  match s.handler with
  | .delivering .. => s.reports.dropLast
  | _ => s.reports

/-- The read is in flight or with the handler and never both, the handler delivers the
last report from the buffer it came in, and what was pushed are events of the reports,
each under the number of its report. -/
structure ReadSound : Prop where
  flight : s.inFlight + held s.handler ≤ 1
  length : s.inBuf.length = hidInPacketMax
  counted : s.seqCounter = UInt32.ofNat s.reports.length
  delivering : forall client seq count timestamp,
    s.handler = .delivering client seq count timestamp ->
      seq = s.seqCounter ∧ exists earlier, s.reports =
        earlier ++ [{ buffer := s.inBuf, count := count, timestamp := timestamp }]
  events : List.Sublist (s.pushed.map fun p => HidInEvent.ofScalars p.2)
    (s.settled.mapIdx eventOf)

/-- The transport points to no stopped client, and a stopped client has no
callback. -/
structure ClientsSound : Prop where
  client : forall c, s.userClient = some c -> s.bound c = true
  callback : forall c, s.bound c = false -> s.hidInCompletion c = none

variable {s}
variable {s' : HidIn} {a : HidInAct}

theorem readSound_started : started.ReadSound where
  flight := Nat.le_refl 1
  length := List.length_replicate
  counted := rfl
  delivering _ _ _ _ h := by cases h
  events := List.Sublist.refl []

theorem clientsSound_started : started.ClientsSound where
  client _ h := by cases h
  callback _ _ := rfl

theorem event_data_length {bytes : List UInt8} (h : bytes.length = hidInPacketMax)
    (length seq : UInt32) (timestamp : UInt64) :
    (event bytes length seq timestamp).data.length = 64 := by
  have hclamped : (if length > 64 then 64 else length).toNat ≤ 64 := by
    split
    · exact Nat.le_refl 64
    · next hle => exact UInt32.le_iff_toNat_le.mp (UInt32.not_lt.mp hle)
  unfold event
  rw [List.length_append, List.length_take, List.length_replicate, h]
  unfold hidInPacketMax
  omega

theorem settled_delivering {client : Option Nat} {seq count : UInt32}
    {timestamp : UInt64} (h : s.handler = .delivering client seq count timestamp) :
    s.settled = s.reports.dropLast := by
  unfold settled
  rw [h]

theorem settled_idle (h : s.handler = .idle) : s.settled = s.reports := by
  unfold settled
  rw [h]

theorem settled_requeueing (h : s.handler = .requeueing) : s.settled = s.reports := by
  unfold settled
  rw [h]

/-- The event pushed for the last report is the one with its number. -/
theorem ReadSound.event_last (h : s.ReadSound) {client : Option Nat}
    {seq count : UInt32} {timestamp : UInt64}
    (hhandler : s.handler = .delivering client seq count timestamp) :
    exists r, s.reports = s.settled ++ [r] ∧
      eventOf s.settled.length r = event s.inBuf count seq timestamp := by
  rcases h.delivering client seq count timestamp hhandler with ⟨hseq, earlier, hreports⟩
  have hsettled : s.settled = earlier := by
    rw [settled_delivering hhandler, hreports, List.dropLast_concat]
  refine ⟨{ buffer := s.inBuf, count := count, timestamp := timestamp }, ?_, ?_⟩
  · rw [hsettled]
    exact hreports
  · unfold eventOf
    rw [hseq, h.counted, hreports, hsettled, List.length_append, List.length_singleton]

theorem pushed_push {c action : Nat} (h : s.hidInCompletion c = some action)
    (seq count : UInt32) (timestamp : UInt64) :
    s.push c seq count timestamp =
      { s with pushed := s.pushed ++ [(action, (event s.inBuf count seq timestamp).scalars)] } := by
  unfold push
  rw [h]

theorem push_none {c : Nat} (h : s.hidInCompletion c = none) (seq count : UInt32)
    (timestamp : UInt64) : s.push c seq count timestamp = s := by
  unfold push
  rw [h]

theorem ReadSound.report (h : s.ReadSound) (hhandler : s.handler = .idle)
    (hflight : 0 < s.inFlight) (count : UInt32) (timestamp : UInt64) :
    (s.report count timestamp).ReadSound := by
  have hone := h.flight
  rw [hhandler] at hone
  refine ⟨?_, h.length, ?_, ?_, ?_⟩
  · show s.inFlight - 1 + 1 ≤ 1
    unfold held at hone
    omega
  · show s.seqCounter + 1 = UInt32.ofNat (s.reports ++ [_]).length
    rw [h.counted, List.length_append, List.length_singleton, UInt32.ofNat_add]
    rfl
  · intro client seq count' timestamp' hdelivering
    cases hdelivering
    exact ⟨rfl, s.reports, rfl⟩
  · show List.Sublist _ ((s.reports ++ [_]).dropLast.mapIdx eventOf)
    rw [List.dropLast_concat, ← settled_idle hhandler]
    exact h.events

/-- The handler leaves the report that it delivered. -/
theorem ReadSound.skip (h : s.ReadSound) {client : Option Nat} {seq count : UInt32}
    {timestamp : UInt64} (hhandler : s.handler = .delivering client seq count timestamp) :
    { s with handler := .requeueing }.ReadSound := by
  rcases h.event_last hhandler with ⟨r, hreports, _⟩
  have hflight := h.flight
  rw [hhandler] at hflight
  refine ⟨hflight, h.length, h.counted, ?_, ?_⟩
  · intro _ _ _ _ hdelivering
    cases hdelivering
  · show List.Sublist _ (s.reports.mapIdx eventOf)
    rw [hreports, List.mapIdx_concat]
    exact h.events.trans (List.sublist_append_left ..)

theorem ReadSound.push (h : s.ReadSound) {c : Nat} {seq count : UInt32}
    {timestamp : UInt64}
    (hhandler : s.handler = .delivering (some c) seq count timestamp) :
    ({ s with handler := .requeueing }.push c seq count timestamp).ReadSound := by
  cases haction : s.hidInCompletion c with
  | none =>
      rw [push_none (s := { s with handler := .requeueing }) haction]
      exact h.skip hhandler
  | some action =>
      rcases h.event_last hhandler with ⟨r, hreports, hevent⟩
      have hskip := h.skip hhandler
      rw [pushed_push (s := { s with handler := .requeueing }) haction]
      refine ⟨hskip.flight, hskip.length, hskip.counted, hskip.delivering, ?_⟩
      show List.Sublist ((s.pushed ++ [_]).map _) (s.reports.mapIdx eventOf)
      rw [hreports, List.mapIdx_concat, List.map_append, List.map_singleton, hevent,
        HidInEvent.ofScalars_scalars (event_data_length h.length count seq timestamp)]
      exact h.events.append (List.Sublist.refl _)

theorem ReadSound.step (h : s.ReadSound) (hstep : Performed s a s') : s'.ReadSound := by
  cases hstep with
  | startClient => exact ⟨h.flight, h.length, h.counted, h.delivering, h.events⟩
  | stopClient => exact ⟨h.flight, h.length, h.counted, h.delivering, h.events⟩
  | registerCallback => exact ⟨h.flight, h.length, h.counted, h.delivering, h.events⟩
  | unsupported => exact h
  | receive hflight hlength =>
      refine ⟨h.flight, hlength, h.counted, ?_, h.events⟩
      -- the device has the buffer, so the handler has no report from it
      intro client seq count timestamp hdelivering
      have hone := h.flight
      rw [show s.handler = .delivering client seq count timestamp from hdelivering] at hone
      exact absurd hflight (Nat.not_lt.mpr (Nat.le_of_succ_le_succ hone))
  | aborted count timestamp hhandler =>
      exact ⟨(Nat.add_le_add_right (Nat.sub_le ..) _).trans h.flight, h.length,
        h.counted, h.delivering, h.events⟩
  | reported timestamp hhandler hflight => exact h.report hhandler hflight _ timestamp
  | failed timestamp hhandler hflight =>
      have hone := h.flight
      have hevents := h.events
      rw [settled_idle hhandler] at hevents
      refine ⟨?_, h.length, h.counted, ?_, hevents⟩
      · show s.inFlight - 1 + 1 ≤ 1
        omega
      · intro _ _ _ _ hdelivering
        cases hdelivering
  | delivered hhandler => exact h.push hhandler
  | undelivered range hhandler => exact h.skip hhandler
  | requeued hhandler =>
      have hone := h.flight
      have hevents := h.events
      rw [hhandler] at hone
      rw [settled_requeueing hhandler] at hevents
      refine ⟨hone, h.length, h.counted, ?_, hevents⟩
      intro _ _ _ _ hdelivering
      cases hdelivering
  | givenUp ret hhandler =>
      have hevents := h.events
      rw [settled_requeueing hhandler] at hevents
      refine ⟨(Nat.le_add_right ..).trans h.flight, h.length, h.counted, ?_, hevents⟩
      intro _ _ _ _ hdelivering
      cases hdelivering
  | stop => exact ⟨h.flight, h.length, h.counted, h.delivering, h.events⟩

theorem ClientsSound.push (h : s.ClientsSound) (c : Nat) (seq count : UInt32)
    (timestamp : UInt64) : (s.push c seq count timestamp).ClientsSound := by
  cases haction : s.hidInCompletion c with
  | none =>
      rw [push_none haction]
      exact h
  | some action =>
      rw [pushed_push haction]
      exact ⟨h.client, h.callback⟩

theorem ClientsSound.step (h : s.ClientsSound) (hstep : Performed s a s') :
    s'.ClientsSound := by
  cases hstep with
  | @startClient c hbound =>
      refine ⟨?_, ?_⟩
      · intro d hd
        cases hd
        exact Function.update_self ..
      · intro d hd
        rcases eq_or_ne d c with rfl | hne
        · exact h.callback d hbound
        · exact h.callback d ((Function.update_of_ne hne true s.bound) ▸ hd)
  | @stopClient c hbound =>
      refine ⟨?_, ?_⟩
      · intro d hd
        replace hd : (if s.userClient = some c then none else s.userClient) = some d := hd
        split at hd
        · cases hd
        · next hother =>
            have hne : d ≠ c := by
              rintro rfl
              exact hother hd
            exact (Function.update_of_ne hne ..).trans (h.client d hd)
      · intro d hd
        rcases eq_or_ne d c with rfl | hne
        · exact Function.update_self ..
        · refine (Function.update_of_ne hne ..).trans (h.callback d ?_)
          exact (Function.update_of_ne hne false s.bound) ▸ hd
  | @registerCallback c action hbound =>
      refine ⟨h.client, ?_⟩
      intro d hd
      have hne : d ≠ c := by
        rintro rfl
        cases hbound.symm.trans hd
      exact (Function.update_of_ne hne ..).trans (h.callback d hd)
  | unsupported => exact h
  | receive => exact ⟨h.client, h.callback⟩
  | aborted => exact ⟨h.client, h.callback⟩
  | reported => exact ⟨h.client, h.callback⟩
  | failed => exact ⟨h.client, h.callback⟩
  | @delivered c seq count timestamp =>
      exact ClientsSound.push (s := { s with handler := .requeueing })
        ⟨h.client, h.callback⟩ c seq count timestamp
  | undelivered => exact ⟨h.client, h.callback⟩
  | requeued => exact ⟨h.client, h.callback⟩
  | givenUp => exact ⟨h.client, h.callback⟩
  | stop => exact ⟨h.client, h.callback⟩

theorem readSound_run {acts : List HidInAct}
    (h : Transition.run step started acts = some s) : s.ReadSound := by
  refine Transition.run_invariant_of_steps step (fun _ _ => True) readSound_started ?_
    (fun _ _ _ _ _ => trivial) h
  intro t a t' hsound _ hstep
  exact hsound.step (performed_of_step hstep)

theorem clientsSound_run {acts : List HidInAct}
    (h : Transition.run step started acts = some s) : s.ClientsSound := by
  refine Transition.run_invariant_of_steps step (fun _ _ => True) clientsSound_started ?_
    (fun _ _ _ _ _ => trivial) h
  intro t a t' hsound _ hstep
  exact hsound.step (performed_of_step hstep)

/-!
## The read loop stays alive
-/

/-- Whether the action ends the read loop: an aborted read, a read that is refused, or
`Stop`. -/
def ends (a : HidInAct) : Prop :=
  match a with
  | .complete status _ _ => status = kIOReturnAborted
  | .requeue ret => ret ≠ kIOReturnSuccess
  | .stop => True
  | _ => False

/-- The transport runs, and its one read is in flight or with the handler. -/
def Alive (s : HidIn) : Prop := s.running = true ∧ s.inFlight + held s.handler = 1

theorem Alive.push (h : s.Alive) (c : Nat) (seq count : UInt32) (timestamp : UInt64) :
    (s.push c seq count timestamp).Alive := by
  cases haction : s.hidInCompletion c with
  | none =>
      rw [push_none haction]
      exact h
  | some action =>
      rw [pushed_push haction]
      exact h

theorem Alive.step (h : s.Alive) (hends : ¬ ends a) (hstep : Performed s a s') :
    s'.Alive := by
  rcases h with ⟨hrunning, hone⟩
  cases hstep with
  | startClient => exact ⟨hrunning, hone⟩
  | stopClient => exact ⟨hrunning, hone⟩
  | registerCallback => exact ⟨hrunning, hone⟩
  | unsupported => exact ⟨hrunning, hone⟩
  | receive => exact ⟨hrunning, hone⟩
  | aborted => exact absurd rfl hends
  | reported timestamp hhandler hflight =>
      rw [hhandler] at hone
      refine ⟨hrunning, ?_⟩
      show s.inFlight - 1 + 1 = 1
      exact (Nat.sub_add_cancel hflight).trans hone
  | failed timestamp hhandler hflight =>
      rw [hhandler] at hone
      exact ⟨hrunning, (Nat.sub_add_cancel hflight).trans hone⟩
  | @delivered c seq count timestamp hhandler =>
      rw [hhandler] at hone
      exact Alive.push (s := { s with handler := .requeueing }) ⟨hrunning, hone⟩ c seq
        count timestamp
  | undelivered range hhandler =>
      rw [hhandler] at hone
      exact ⟨hrunning, hone⟩
  | requeued hhandler =>
      rw [hhandler] at hone
      exact ⟨hrunning, hone⟩
  | givenUp ret hhandler hret =>
      rcases hret with hstopped | hret
      · cases hrunning.symm.trans hstopped
      · exact absurd hret hends
  | stop => exact absurd trivial hends

/-- In every run of the transport with its clients, whatever their order: there is at
most one read, the device never writes into a buffer that the handler reads, the
transport points to no stopped client, and the events pushed to the callbacks are
events of the reports, each at most once, in order and under the number of its report;
and the read is always queued again unless it is aborted, refused or stopped. -/
theorem hidIn_events_run {acts : List HidInAct}
    (h : Transition.run step started acts = some s) :
    s.inFlight + held s.handler ≤ 1 ∧
      (forall c, s.userClient = some c -> s.bound c = true) ∧
      List.Sublist (s.pushed.map fun p => HidInEvent.ofScalars p.2)
        (s.reports.mapIdx eventOf) ∧
      ((forall a, a ∈ acts -> ¬ ends a) -> s.inFlight + held s.handler = 1) := by
  have hread : s.ReadSound := readSound_run h
  refine ⟨hread.flight, (clientsSound_run h).client, ?_, ?_⟩
  · refine hread.events.trans ?_
    cases hhandler : s.handler with
    | idle => rw [settled_idle hhandler]
    | requeueing => rw [settled_requeueing hhandler]
    | delivering client seq count timestamp =>
        rcases hread.event_last hhandler with ⟨r, hreports, _⟩
        rw [hreports, List.mapIdx_concat]
        exact List.sublist_append_left ..
  · intro hends
    have hstart : started.Alive := ⟨rfl, rfl⟩
    have halive : s.Alive := by
      refine Transition.run_invariant_of_steps step (fun _ a => ¬ ends a) hstart ?_ ?_ h
      · intro t a t' hinv hok hstep
        exact hinv.step hok (performed_of_step hstep)
      · intro pre a _ hpre _
        exact hends a (hpre.subset (List.mem_append_right _ (List.mem_singleton.mpr rfl)))
    exact halive.right

/-- A client that registers, and one report. -/
def oneReport : List HidInAct :=
  [.startClient 0, .registerCallback 0 7, .receive (List.replicate 64 1),
    .complete kIOReturnSuccess 64 5, .deliver kIOReturnSuccess, .requeue kIOReturnSuccess]

theorem hidIn_events_oneReport :
    exists s, Transition.run step started oneReport = some s ∧ s.pushed.length = 1 ∧
      s.inFlight + held s.handler ≤ 1 ∧
      (forall c, s.userClient = some c -> s.bound c = true) ∧
      List.Sublist (s.pushed.map fun p => HidInEvent.ofScalars p.2)
        (s.reports.mapIdx eventOf) ∧
      ((forall a, a ∈ oneReport -> ¬ ends a) -> s.inFlight + held s.handler = 1) :=
  ⟨_, rfl, rfl, hidIn_events_run rfl⟩

/-!
## The stream of one client
-/

/-- The actions that leave a client attached with its callback, while the transport runs
and finds its buffer. -/
def streams (c : Nat) (a : HidInAct) : Prop :=
  match a with
  | .startClient _ => False
  | .stopClient d => d ≠ c
  | .registerCallback d _ => d ≠ c
  | .deliver range => range = kIOReturnSuccess
  | .stop => False
  | _ => True

/-- What the client has got since there were `base` and `pushed0`. -/
structure Streamed (c action : Nat) (base : List InReport)
    (pushed0 : List (Nat × List UInt64)) (s : HidIn) : Prop where
  running : s.running = true
  client : s.userClient = some c
  callback : s.hidInCompletion c = some action
  target : forall client seq count timestamp,
    s.handler = .delivering client seq count timestamp -> client = some c
  stream : exists new, s.settled = base ++ new ∧ s.pushed = pushed0 ++
    new.mapIdx fun k r => (action, (eventOf (base.length + k) r).scalars)

variable {c action : Nat} {base : List InReport} {pushed0 : List (Nat × List UInt64)}

/-- A step that keeps the client, what is pushed and what is settled. -/
theorem Streamed.move (h : s.Streamed c action base pushed0)
    (hrunning : s'.running = s.running) (hclient : s'.userClient = some c)
    (hcallback : s'.hidInCompletion c = some action)
    (htarget : forall client seq count timestamp,
      s'.handler = .delivering client seq count timestamp -> client = some c)
    (hsettled : s'.settled = s.settled) (hpushed : s'.pushed = s.pushed) :
    s'.Streamed c action base pushed0 := by
  refine ⟨hrunning.trans h.running, hclient, hcallback, htarget, ?_⟩
  rw [hsettled, hpushed]
  exact h.stream

theorem Streamed.deliver (h : s.Streamed c action base pushed0) (hread : s.ReadSound)
    {client : Option Nat} {seq count : UInt32} {timestamp : UInt64}
    (hhandler : s.handler = .delivering client seq count timestamp) :
    ({ s with handler := .requeueing }.push c seq count timestamp).Streamed c action
      base pushed0 := by
  rcases hread.event_last hhandler with ⟨r, hreports, hevent⟩
  rcases h.stream with ⟨new, hsettled, hpushed⟩
  rw [pushed_push (s := { s with handler := .requeueing }) h.callback]
  refine ⟨h.running, h.client, h.callback, ?_, new ++ [r], ?_, ?_⟩
  · intro _ _ _ _ hdelivering
    cases hdelivering
  · show s.reports = base ++ (new ++ [r])
    rw [hreports, hsettled, List.append_assoc]
  · show s.pushed ++ [(action, (event s.inBuf count seq timestamp).scalars)] = _
    rw [hpushed, ← hevent, hsettled, List.mapIdx_concat, List.length_append,
      List.append_assoc]

theorem Streamed.step (h : s.Streamed c action base pushed0) (hread : s.ReadSound)
    (hok : streams c a) (hstep : Performed s a s') :
    s'.Streamed c action base pushed0 := by
  cases hstep with
  | startClient => exact hok.elim
  | @stopClient d =>
      have hother : s.userClient ≠ some d := by
        rw [h.client]
        intro heq
        exact hok (Option.some.inj heq).symm
      refine h.move rfl ?_ ?_ h.target rfl rfl
      · exact (if_neg hother).trans h.client
      · exact (Function.update_of_ne (Ne.symm hok) ..).trans h.callback
  | registerCallback =>
      refine h.move rfl h.client ?_ h.target rfl rfl
      exact (Function.update_of_ne (Ne.symm hok) ..).trans h.callback
  | unsupported => exact h
  | receive => exact h.move rfl h.client h.callback h.target rfl rfl
  | aborted => exact h.move rfl h.client h.callback h.target rfl rfl
  | reported timestamp hhandler =>
      refine h.move rfl h.client h.callback ?_ ?_ rfl
      · intro _ _ _ _ hdelivering
        cases hdelivering
        exact h.client
      · exact List.dropLast_concat.trans (settled_idle hhandler).symm
  | failed timestamp hhandler =>
      refine h.move rfl h.client h.callback ?_ (settled_idle hhandler).symm rfl
      intro _ _ _ _ hdelivering
      cases hdelivering
  | @delivered d _ _ _ hhandler =>
      cases h.target _ _ _ _ hhandler
      exact h.deliver hread hhandler
  | undelivered range hhandler hskip =>
      rcases hskip with hnone | hstopped | hrange
      · cases hnone.symm.trans (h.target _ _ _ _ hhandler)
      · cases h.running.symm.trans hstopped
      · exact absurd hok hrange
  | requeued hhandler =>
      refine h.move rfl h.client h.callback ?_ (settled_requeueing hhandler).symm rfl
      intro _ _ _ _ hdelivering
      cases hdelivering
  | givenUp ret hhandler =>
      refine h.move rfl h.client h.callback ?_ (settled_requeueing hhandler).symm rfl
      intro _ _ _ _ hdelivering
      cases hdelivering
  | stop => exact hok.elim

/-- From any state that the transport can reach between two reads, as long as the
client that is attached then stays attached: every report since is pushed to its
callback, once, in order and under its number, whatever the other clients do. -/
theorem hidIn_stream_run {acts acts' : List HidInAct}
    (hreach : Transition.run step started acts = some s) (hidle : s.handler = .idle)
    (hrunning : s.running = true) (hclient : s.userClient = some c)
    (hcallback : s.hidInCompletion c = some action)
    (hstreams : forall a, a ∈ acts' -> streams c a)
    (h : Transition.run step s acts' = some s') :
    exists new, s'.settled = s.reports ++ new ∧ s'.pushed = s.pushed ++
      new.mapIdx fun k r => (action, (eventOf (s.reports.length + k) r).scalars) := by
  have hstart : s.Streamed c action s.reports s.pushed := by
    refine ⟨hrunning, hclient, hcallback, ?_, [], ?_, ?_⟩
    · intro _ _ _ _ hdelivering
      cases hidle.symm.trans hdelivering
    · rw [settled_idle hidle, List.append_nil]
    · rw [List.mapIdx_nil, List.append_nil]
  have hend : s'.Streamed c action s.reports s.pushed := by
    refine Transition.run_invariant_of_steps step
      (fun t a => t.ReadSound ∧ streams c a) hstart ?_ ?_ h
    · rintro t a t' htstream ⟨htread, hok⟩ hstep
      exact htstream.step htread hok (performed_of_step hstep)
    · intro pre a t hpre ht
      have hrun : Transition.run step started (acts ++ pre) = some t := by
        rw [Transition.run_append, hreach]
        exact ht
      refine ⟨readSound_run hrun, ?_⟩
      exact hstreams a (hpre.subset (List.mem_append_right _ (List.mem_singleton.mpr rfl)))
  exact hend.stream

theorem hidIn_stream_oneReport :
    exists s s', Transition.run step started (oneReport.take 2) = some s ∧
      Transition.run step s (oneReport.drop 2) = some s' ∧
      s'.settled.length = 1 ∧
      exists new, s'.settled = s.reports ++ new ∧ s'.pushed = s.pushed ++
        new.mapIdx fun k r => (7, (eventOf (s.reports.length + k) r).scalars) := by
  refine ⟨_, _, rfl, rfl, rfl, @hidIn_stream_run _ _ 0 _ (oneReport.take 2)
    (oneReport.drop 2) rfl rfl rfl rfl rfl ?_ rfl⟩
  intro a ha
  rcases List.mem_cons.mp ha with rfl | ha
  · trivial
  rcases List.mem_cons.mp ha with rfl | ha
  · trivial
  rcases List.mem_cons.mp ha with rfl | ha
  · exact rfl
  rcases List.mem_singleton.mp ha with rfl
  trivial

end HidIn

end Dext
end OpenMk3
