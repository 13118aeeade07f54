import Mathlib.Algebra.Group.Nat.Defs
import OpenMk3.Library.Transition

/-!
# USB transfers

One IN transfer of the USB library: the boxed transfer with its state byte, the
thread that owns the `TransferHandle`, the kernel, and the event thread that
runs the completion callback.  The parties interleave at the atomic operations
and at the accesses to the platform data.
-/

namespace OpenMk3
namespace Usb

open Library

/-- `IOReturn` as its 32 bits. -/
abbrev IOReturn : Type := UInt32

def kIOReturnSuccess : IOReturn := 0

def kIOReturnUnderrun : IOReturn := 0xe00002e7

def kIOReturnNoDevice : IOReturn := 0xe00002c0

def kIOReturnAborted : IOReturn := 0xe00002eb

def kIOUSBPipeStalled : IOReturn := 0xe000404f

inductive TransferError where
  | cancelled
  | stall
  | disconnected
  | fault
  | unknown
deriving DecidableEq, Repr

def statusToTransferResult (status : IOReturn) : Option TransferError :=
  if status = kIOReturnSuccess ∨ status = kIOReturnUnderrun then none
  else if status = kIOReturnNoDevice then some .disconnected
  else if status = kIOReturnAborted then some .cancelled
  else if status = kIOUSBPipeStalled then some .stall
  else some .unknown

/-- Status and data of a completed transfer; the status is the error, if any. -/
structure Completion where
  data : List UInt8
  status : Option TransferError
deriving DecidableEq, Repr

/-- What a completion callback with these arguments tells. -/
def Completion.ofResult (result : IOReturn) (bytes : List UInt8) : Completion :=
  { data := bytes
    status := statusToTransferResult result }

/-- A buffer for an IN transfer: its memory, and the length asked for. -/
structure RequestBuffer where
  memory : List UInt8
  requested : Nat
  fits : requested ≤ memory.length

/-!
## The boxed transfer
-/

/-- The `STATE_*` constants. -/
inductive TransferState where
  | idle
  | pending
  | abandoned
  | completed
deriving DecidableEq, Repr

/-- The buffer, null when it is taken, and what the callback writes. -/
structure TransferData where
  buf : Option (List UInt8)
  actualLen : Nat
  status : IOReturn

structure TransferInner where
  platformData : TransferData
  state : TransferState

def TransferInner.new : TransferInner :=
  { platformData :=
      { buf := none
        actualLen := 0
        status := kIOReturnSuccess }
    state := .idle }

/-!
## The parties
-/

/-- What is left to do of a call of `notify_completion`. -/
inductive Notify where
  | cloneWaker
  | swapState
  | wake
  | dropBox
deriving DecidableEq, Repr

/-- Where the thread with the handle stands. -/
inductive Owner where
  | ready
  | submitting (data : RequestBuffer)
  -- The buffer is filled, the kernel not yet called.
  | filled (len : Nat)
  -- The kernel refused, the owner completes in the place of the callback.
  | notifying (n : Notify)
  -- The waker is registered, the state not yet loaded.
  | polling
  | storing
  | taking
  | cancelling
  | abandoning
  | freeing
  | gone
  -- After a panic nothing but the drop runs.
  | unwinding

/-- The owner uses the handle and has not panicked. -/
def Owner.serving : Owner -> Bool
  | .cancelling | .abandoning | .freeing | .gone | .unwinding => false
  | _ => true

/-- Where the completion callback stands. -/
inductive Handler where
  | called (result : IOReturn) (len : Nat)
  | notifying (n : Notify)

/-- The panics of the transfer. -/
inductive Panic where
  -- The state byte is the one found.
  | submit (prev : TransferState)
  -- "request too large"
  | tooLarge
  | poll
  | drop
  | notify
  | takeBuf
deriving DecidableEq, Repr

/-- A call out of turn, or for more bytes than the kernel can be asked for. -/
def Panic.ofCall : Panic -> Bool
  | .submit prev => prev ≠ .idle
  | .tooLarge | .poll => true
  | _ => false

theorem Panic.of_ofCall {p : Panic} (h : p.ofCall = true) :
    (exists prev, prev ≠ .idle ∧ p = .submit prev) ∨ p = .tooLarge ∨ p = .poll := by
  cases p with
  | submit prev => exact .inl ⟨prev, of_decide_eq_true h, rfl⟩
  | tooLarge => exact .inr (.inl rfl)
  | poll => exact .inr (.inr rfl)
  | _ => cases h

/-- The state byte stays pending with nobody to complete the transfer. -/
def Panic.strands : Panic -> Bool
  | .submit .completed | .tooLarge => true
  | _ => false

/-- The box, `none` once freed, the waker cell that outlives it, the parties,
and what was observed: an access to freed or shared memory, a buffer that was
overwritten in the box, the completions reported and those a poll returned. -/
structure Transfer where
  inner : Option TransferInner
  waker : Bool
  waiting : Bool
  woken : Bool
  owner : Owner
  kernel : Option Nat
  handler : Option Handler
  panic : Option Panic
  fault : Bool
  overwritten : Bool
  reported : List Completion
  returned : List Completion

inductive TransferAct where
  | submit (data : RequestBuffer)
  | poll
  | cancel
  | drop
  -- The next operation of the call the owner is in.
  | owner
  | accept
  | refuse (res : IOReturn)
  | complete (result : IOReturn) (bytes : List UInt8)
  | handler

namespace Handler

/-- The callback has not yet handed the transfer back. -/
def holds : Handler -> Bool
  | called .. | notifying .cloneWaker | notifying .swapState => true
  | notifying .wake | notifying .dropBox => false

end Handler

namespace Transfer

def new : Transfer where
  inner := some TransferInner.new
  waker := false
  waiting := false
  woken := false
  owner := .ready
  kernel := none
  handler := none
  panic := none
  fault := false
  overwritten := false
  reported := []
  returned := []

/-- The kernel or the callback may access the buffer and the result. -/
def busy (s : Transfer) : Bool :=
  s.kernel.isSome || s.handler.any Handler.holds

/-- The transfer stays pending for good. -/
def stranded (s : Transfer) : Bool :=
  s.panic.any Panic.strands

theorem stranded_eq_false_iff {s : Transfer} :
    s.stranded = false <->
      s.panic ≠ some (.submit .completed) ∧ s.panic ≠ some .tooLarge := by
  unfold stranded
  cases hpanic : s.panic with
  | none => simp
  | some p =>
      cases p with
      | submit prev => cases prev <;> simp [Panic.strands]
      | _ => simp [Panic.strands]

/-- An access to the box. -/
def touch (s : Transfer) (f : TransferInner -> Transfer) : Transfer :=
  match s.inner with
  | some inner => f inner
  | none => { s with fault := true }

/-- An access to the platform data that must be exclusive. -/
def exclusive (s : Transfer) (f : TransferInner -> Transfer) : Transfer :=
  s.touch fun inner => { f inner with fault := (f inner).fault || s.busy }

def setState (s : Transfer) (inner : TransferInner) (state : TransferState) :
    Transfer :=
  { s with inner := some { inner with state := state } }

def setData (s : Transfer) (inner : TransferInner) (data : TransferData) :
    Transfer :=
  { s with inner := some { inner with platformData := data } }

/-- `drop(Box::from_raw(..))`. -/
def freeBox (s : Transfer) : Transfer :=
  s.touch fun _ => { s with inner := none }

/-- One operation of `notify_completion`, and what is left to do after it. -/
def notify (s : Transfer) : Notify -> Transfer × Option Notify
  | .cloneWaker => (s.touch fun _ => s, some .swapState)
  | .swapState =>
      match s.inner with
      | none => ({ s with fault := true }, none)
      | some inner =>
          match inner.state with
          | .pending => (s.setState inner .completed, some .wake)
          | .abandoned => (s.setState inner .completed, some .dropBox)
          | _ => ({ s.setState inner .completed with panic := some .notify }, none)
  | .wake => ({ s with waker := false, woken := s.woken || s.waker }, none)
  | .dropBox => (s.freeBox, none)

/-!
## Calls of the owner
-/

def submit (s : Transfer) (data : RequestBuffer) : Transfer :=
  s.touch fun inner =>
    if inner.state = .idle then
      { s.setState inner .pending with owner := .submitting data }
    else
      { s.setState inner .pending with
        owner := .unwinding
        panic := some (.submit inner.state) }

def fill (s : Transfer) (data : RequestBuffer) : Transfer :=
  s.exclusive fun inner =>
    { s.setData inner
        { buf := some data.memory
          actualLen := 0
          status := kIOReturnSuccess } with
      owner := .filled data.requested
      overwritten := s.overwritten || inner.platformData.buf.isSome }

/-- `u32::try_from(len)` fails before the kernel is called. -/
def rejectLength (s : Transfer) : Transfer :=
  { s with owner := .unwinding, panic := some .tooLarge }

/-- The kernel has taken the request. -/
def accept (s : Transfer) (len : Nat) : Transfer :=
  { s with owner := .ready, kernel := some len }

/-- `check_submit_result` on an error. -/
def refuse (s : Transfer) (res : IOReturn) : Transfer :=
  s.exclusive fun inner =>
    { s.setData inner { inner.platformData with status := res } with
      owner := .notifying .cloneWaker
      reported := s.reported ++ [Completion.ofResult res []] }

def ownerNotify (s : Transfer) (n : Notify) : Transfer :=
  { (s.notify n).fst with
    owner := ((s.notify n).snd.map Owner.notifying).getD .ready }

/-- `poll_completion` registers the waker first. -/
def poll (s : Transfer) : Transfer :=
  s.touch fun _ =>
    { s with owner := .polling, waker := true, waiting := false, woken := false }

def load (s : Transfer) : Transfer :=
  s.touch fun inner =>
    match inner.state with
    | .pending => { s with owner := .ready, waiting := true }
    | .completed => { s with owner := .storing }
    | _ => { s with owner := .unwinding, panic := some .poll }

def store (s : Transfer) : Transfer :=
  s.touch fun inner => { s.setState inner .idle with owner := .taking }

/-- `take_completed`, with the assertions of `take_buf`. -/
def takeCompleted (s : Transfer) : Transfer :=
  s.exclusive fun inner =>
    let data := inner.platformData
    match data.buf with
    | none => { s with owner := .unwinding, panic := some .takeBuf }
    | some memory =>
        if data.actualLen ≤ memory.length then
          { s.setData inner { data with buf := none } with
            owner := .ready
            returned := s.returned ++
              [Completion.ofResult data.status (memory.take data.actualLen)] }
        else { s with owner := .unwinding, panic := some .takeBuf }

def cancel (s : Transfer) : Transfer :=
  s.touch fun _ => s

/-- `Drop` loads the state to see whether to cancel. -/
def drop (s : Transfer) : Transfer :=
  s.touch fun inner =>
    { s with
      owner := if inner.state = .pending then .cancelling else .abandoning }

def cancelDropped (s : Transfer) : Transfer :=
  s.touch fun _ => { s with owner := .abandoning }

def abandon (s : Transfer) : Transfer :=
  s.touch fun inner =>
    match inner.state with
    | .pending => { s.setState inner .abandoned with owner := .gone }
    | .abandoned =>
        { s.setState inner .abandoned with owner := .gone, panic := some .drop }
    | _ => { s.setState inner .abandoned with owner := .freeing }

def free (s : Transfer) : Transfer :=
  { s.freeBox with owner := .gone }

/-!
## The kernel and the callback
-/

/-- The kernel's bytes over the start of the buffer. -/
def overwrite (bytes memory : List UInt8) : List UInt8 :=
  (bytes ++ memory.drop bytes.length).take memory.length

/-- The kernel has written the bytes and calls back. -/
def complete (s : Transfer) (result : IOReturn) (bytes : List UInt8) : Transfer :=
  s.touch fun inner =>
    { s.setData inner
        { inner.platformData with
          buf := inner.platformData.buf.map (overwrite bytes) } with
      kernel := none
      handler := some (.called result bytes.length)
      reported := s.reported ++ [Completion.ofResult result bytes] }

def writeResult (s : Transfer) (result : IOReturn) (len : Nat) : Transfer :=
  s.touch fun inner =>
    { s.setData inner
        { inner.platformData with actualLen := len, status := result } with
      handler := some (.notifying .cloneWaker) }

def handlerNotify (s : Transfer) (n : Notify) : Transfer :=
  { (s.notify n).fst with handler := (s.notify n).snd.map Handler.notifying }

def ownerStep (s : Transfer) : Option Transfer :=
  match s.owner with
  | .submitting data => some (s.fill data)
  | .filled len => if 2 ^ 32 ≤ len then some s.rejectLength else none
  | .notifying n => some (s.ownerNotify n)
  | .polling => some s.load
  | .storing => some s.store
  | .taking => some s.takeCompleted
  | .cancelling => some s.cancelDropped
  | .abandoning => some s.abandon
  | .freeing => some s.free
  | .ready | .gone | .unwinding => none

def handlerStep (s : Transfer) : Option Transfer :=
  match s.handler with
  | some (.called result len) => some (s.writeResult result len)
  | some (.notifying n) => some (s.handlerNotify n)
  | none => none

/-- The event thread runs one callback at a time, and the kernel writes no more
than was asked for. -/
def step : Transition Transfer TransferAct
  | s, .submit data =>
      match s.owner with
      | .ready => some (s.submit data)
      | _ => none
  | s, .poll =>
      match s.owner with
      | .ready => some s.poll
      | _ => none
  | s, .cancel =>
      match s.owner with
      | .ready => some s.cancel
      | _ => none
  | s, .drop =>
      match s.owner with
      | .ready | .unwinding => some s.drop
      | _ => none
  | s, .owner => s.ownerStep
  | s, .accept =>
      match s.owner with
      | .filled len => if len < 2 ^ 32 then some (s.accept len) else none
      | _ => none
  | s, .refuse res =>
      match s.owner with
      | .filled len =>
          if len < 2 ^ 32 ∧ res ≠ kIOReturnSuccess then some (s.refuse res) else none
      | _ => none
  | s, .complete result bytes =>
      match s.kernel, s.handler with
      | some len, none =>
          if bytes.length ≤ len then some (s.complete result bytes) else none
      | _, _ => none
  | s, .handler => s.handlerStep

/-- What each action does when it is enabled. -/
inductive Performed (s : Transfer) : Transfer -> Prop where
  | submit (data : RequestBuffer) (howner : s.owner = .ready) :
      Performed s (s.submit data)
  | fill {data : RequestBuffer} (howner : s.owner = .submitting data) :
      Performed s (s.fill data)
  | rejectLength {len : Nat} (howner : s.owner = .filled len) :
      Performed s s.rejectLength
  | accept {len : Nat} (howner : s.owner = .filled len) :
      Performed s (s.accept len)
  | refuse {len : Nat} (res : IOReturn) (howner : s.owner = .filled len) :
      Performed s (s.refuse res)
  | ownerNotify {n : Notify} (howner : s.owner = .notifying n) :
      Performed s (s.ownerNotify n)
  | poll (howner : s.owner = .ready) : Performed s s.poll
  | load (howner : s.owner = .polling) : Performed s s.load
  | store (howner : s.owner = .storing) : Performed s s.store
  | takeCompleted (howner : s.owner = .taking) : Performed s s.takeCompleted
  | cancel (howner : s.owner = .ready) : Performed s s.cancel
  | drop (howner : s.owner = .ready ∨ s.owner = .unwinding) : Performed s s.drop
  | cancelDropped (howner : s.owner = .cancelling) : Performed s s.cancelDropped
  | abandon (howner : s.owner = .abandoning) : Performed s s.abandon
  | free (howner : s.owner = .freeing) : Performed s s.free
  | complete {len : Nat} (result : IOReturn) {bytes : List UInt8}
      (hkernel : s.kernel = some len) (hhandler : s.handler = none)
      (hlen : bytes.length ≤ len) : Performed s (s.complete result bytes)
  | writeResult {result : IOReturn} {len : Nat}
      (hhandler : s.handler = some (.called result len)) :
      Performed s (s.writeResult result len)
  | handlerNotify {n : Notify} (hhandler : s.handler = some (.notifying n)) :
      Performed s (s.handlerNotify n)

theorem performed_of_step {s s' : Transfer} {a : TransferAct}
    (h : step s a = some s') : Performed s s' := by
  cases a with
  | submit data =>
      cases howner : s.owner <;> simp only [step, howner] at h
      all_goals cases h
      exact .submit data howner
  | poll =>
      cases howner : s.owner <;> simp only [step, howner] at h
      all_goals cases h
      exact .poll howner
  | cancel =>
      cases howner : s.owner <;> simp only [step, howner] at h
      all_goals cases h
      exact .cancel howner
  | drop =>
      cases howner : s.owner <;> simp only [step, howner] at h
      all_goals cases h
      · exact .drop (.inl howner)
      · exact .drop (.inr howner)
  | owner =>
      cases howner : s.owner <;> simp only [step, ownerStep, howner] at h
      case filled len =>
        split at h
        · cases h
          exact .rejectLength howner
        · cases h
      all_goals cases h
      · exact .fill howner
      · exact .ownerNotify howner
      · exact .load howner
      · exact .store howner
      · exact .takeCompleted howner
      · exact .cancelDropped howner
      · exact .abandon howner
      · exact .free howner
  | accept =>
      cases howner : s.owner with
      | filled len =>
          simp only [step, howner] at h
          split at h
          · cases h
            exact .accept howner
          · cases h
      | _ =>
          simp only [step, howner] at h
          cases h
  | refuse res =>
      cases howner : s.owner with
      | filled len =>
          simp only [step, howner] at h
          split at h
          · cases h
            exact .refuse res howner
          · cases h
      | _ =>
          simp only [step, howner] at h
          cases h
  | complete result bytes =>
      cases hkernel : s.kernel with
      | none =>
          simp only [step, hkernel] at h
          cases h
      | some len =>
          cases hhandler : s.handler with
          | some c =>
              simp only [step, hkernel, hhandler] at h
              cases h
          | none =>
              simp only [step, hkernel, hhandler] at h
              split at h
              · next hlen =>
                  cases h
                  exact .complete result hkernel hhandler hlen
              · cases h
  | handler =>
      cases hhandler : s.handler with
      | none =>
          simp only [step, handlerStep, hhandler] at h
          cases h
      | some c =>
          cases c <;> simp only [step, handlerStep, hhandler] at h
          all_goals cases h
          · exact .writeResult hhandler
          · exact .handlerNotify hhandler

end Transfer

end Usb
end OpenMk3
