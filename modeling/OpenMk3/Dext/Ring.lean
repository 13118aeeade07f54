import OpenMk3.Dext.HidSlots

/-!
# The display ring

`SubmitBulkOut` and `HandleBulkOutComplete` over the sixteen-slot ring.  A step
is a critical section of `ringLock`, the copy into a slot's buffer, or the call
of `AsyncIOBundled`, of any number of overlapping submissions.
-/

namespace OpenMk3
namespace Dext

open Library

def displaySlotSize : Nat := 524288

/-- Where one invocation of `SubmitBulkOut` stands. -/
inductive BulkState where
  | idle
  | claimed (slot : Nat) (bytes : List UInt8) (seq : UInt32)
  | filled (slot : Nat) (bytes : List UInt8) (seq : UInt32)
  -- The buffer is null or has no address; `inflight` still counts the slot.
  | dropping (slot : Nat) (ret : KernReturn)
  -- `AsyncIOBundled` refused; `head` is still to be rewound.
  | refused (slot : Nat) (ret : KernReturn)
  | returned (ret : KernReturn)
deriving DecidableEq, Repr

namespace BulkState

/-- The slot an unfinished submission has claimed. -/
def slot? : BulkState -> Option Nat
  | claimed slot _ _ | filled slot _ _ | dropping slot _ | refused slot _ =>
      some slot
  | _ => none

/-- The slot and sequence number of a submission that may still be accepted. -/
def pending? : BulkState -> Option (Nat × UInt32)
  | claimed slot _ seq | filled slot _ seq => some (slot, seq)
  | _ => none

def isDropping : BulkState -> Bool
  | dropping _ _ => true
  | _ => false

end BulkState

/-- A frame the controller accepted, as it was submitted. -/
structure Frame where
  call : Nat
  slot : Nat
  seq : UInt32
deriving DecidableEq, Repr

structure Completion where
  frame : Frame
  status : KernReturn
  attached : Bool
deriving DecidableEq, Repr

/-- What the attached client is told of a completion. -/
def Completion.report? (x : Completion) : Option (UInt32 × KernReturn) :=
  if x.attached then some (x.frame.seq, x.status) else none

/-- The ring of the transport and the notifications delivered.  The last four
fields are history: the accepted frames not yet completed in the order of their
acceptance, the calls that hold a slot in the order of their claims, the slot
each call was given, and what has completed. -/
structure DisplayRing where
  head : Nat
  tail : Nat
  inflight : Nat
  slotSeq : Nat -> UInt32
  buffer : Nat -> List UInt8
  client : Bool
  calls : Nat -> BulkState
  delivered : List (UInt32 × KernReturn)
  frames : List Frame
  holders : List Nat
  given : Nat -> Option Nat
  completions : List Completion

inductive RingAct where
  | submit (call : Nat) (bytes : Option (List UInt8)) (seq : UInt32)
      (ready : Bool)
  | fill (call : Nat) (bufNull : Bool) (range : KernReturn) (addressNull : Bool)
  | abandon (call : Nat)
  | asyncIOBundled (call : Nat) (ret : KernReturn) (accepted : UInt32)
  | rewind (call : Nat)
  -- One callback for the frames from a ring index on.
  | complete (index : Nat) (statuses : List KernReturn)
  | setClient (attached : Bool)

namespace DisplayRing

def init : DisplayRing where
  head := 0
  tail := 0
  inflight := 0
  slotSeq _ := 0
  buffer _ := []
  client := false
  calls _ := .idle
  delivered := []
  frames := []
  holders := []
  given _ := none
  completions := []

def setCall (s : DisplayRing) (c : Nat) (state : BulkState) : DisplayRing :=
  { s with calls := Function.update s.calls c state }

/-- The first critical section of `SubmitBulkOut`. -/
def claim (s : DisplayRing) (c : Nat) (bytes : List UInt8) (seq : UInt32) :
    DisplayRing :=
  if s.inflight ≥ displayRingDepth then
    s.setCall c (.returned kIOReturnNoResources)
  else
    { s.setCall c (.claimed s.head bytes seq) with
      head := (s.head + 1) % displayRingDepth
      inflight := s.inflight + 1
      slotSeq := Function.update s.slotSeq s.head seq
      holders := s.holders ++ [c]
      given := Function.update s.given c (some s.head) }

/-- The copy into the slot's buffer. -/
def copy (s : DisplayRing) (c slot : Nat) (bytes : List UInt8) (seq : UInt32) :
    DisplayRing :=
  { s.setCall c (.filled slot bytes seq) with
    buffer := Function.update s.buffer slot bytes }

/-- `if (ivars->inflight > 0) ivars->inflight--`, of a call that gives its slot
up. -/
def release (s : DisplayRing) (c : Nat) (ret : KernReturn) : DisplayRing :=
  { s.setCall c (.returned ret) with
    inflight := if s.inflight > 0 then s.inflight - 1 else s.inflight
    holders := s.holders.erase c }

/-- The refused submission rewinds `head`, so that its slot can be reused. -/
def rewind (s : DisplayRing) (c slot : Nat) (ret : KernReturn) : DisplayRing :=
  { s.release c ret with head := slot }

def accept (s : DisplayRing) (c slot : Nat) (seq : UInt32) : DisplayRing :=
  { s.setCall c (.returned kIOReturnSuccess) with
    frames := s.frames ++ [{ call := c, slot := slot, seq := seq }] }

/-- One turn of the completion loop, under the lock. -/
def completeOne (s : DisplayRing) (status : KernReturn) (frame : Frame)
    (rest : List Frame) : DisplayRing :=
  { s with
    inflight := if s.inflight > 0 then s.inflight - 1 else s.inflight
    tail := (s.tail + 1) % displayRingDepth
    frames := rest
    holders := s.holders.erase frame.call
    completions := s.completions ++
      [{ frame := frame, status := status, attached := s.client }] }

/-- The completion loop from a ring index on, with the sequence numbers and
statuses it collects.  The controller completes the oldest frames, each at its
own index. -/
def completeFrom (s : DisplayRing) :
    Nat -> List KernReturn -> Option (DisplayRing × List (UInt32 × KernReturn))
  | _, [] => some (s, [])
  | index, status :: rest =>
      match s.frames with
      | [] => none
      | frame :: later =>
          if frame.slot = index % displayRingDepth then
            ((s.completeOne status frame later).completeFrom (index + 1)
              rest).map fun out =>
                (out.1, (s.slotSeq (index % displayRingDepth), status) :: out.2)
          else none

/-- `DeliverDisplayDone` for what the loop collected, if a client is
attached. -/
def deliver (s : DisplayRing) (done : List (UInt32 × KernReturn)) :
    DisplayRing :=
  if s.client then { s with delivered := s.delivered ++ done } else s

def step : Transition DisplayRing RingAct
  | s, .submit c bytes seq ready =>
      match s.calls c with
      | .idle =>
          match bytes with
          | none => some (s.setCall c (.returned kIOReturnBadArgument))
          | some bytes =>
              if bytes.length = 0 ∨ bytes.length > displaySlotSize then
                some (s.setCall c (.returned kIOReturnBadArgument))
              else if ready = false then
                some (s.setCall c (.returned kIOReturnNotReady))
              else some (s.claim c bytes seq)
      | _ => none
  | s, .fill c bufNull range addressNull =>
      match s.calls c with
      | .claimed slot bytes seq =>
          if bufNull then some (s.setCall c (.dropping slot kIOReturnNotReady))
          else if range ≠ kIOReturnSuccess then
            some (s.setCall c (.dropping slot range))
          else if addressNull then
            some (s.setCall c (.dropping slot kIOReturnNotReady))
          else some (s.copy c slot bytes seq)
      | _ => none
  | s, .abandon c =>
      match s.calls c with
      | .dropping _ ret => some (s.release c ret)
      | _ => none
  | s, .asyncIOBundled c ret accepted =>
      match s.calls c with
      | .filled slot _ seq =>
          if ret ≠ kIOReturnSuccess ∨ accepted ≠ 1 then
            some (s.setCall c (.refused slot
              (if ret = kIOReturnSuccess then kIOReturnNoResources else ret)))
          else some (s.accept c slot seq)
      | _ => none
  | s, .rewind c =>
      match s.calls c with
      | .refused slot ret => some (s.rewind c slot ret)
      | _ => none
  | s, .complete index statuses =>
      if statuses.length ≤ displayRingDepth then
        (s.completeFrom index statuses).map fun out => out.1.deliver out.2
      else none
  | s, .setClient attached => some { s with client := attached }

/-- The completion loop touches no submission, sequence number or buffer, and
leaves the notifications to come. -/
theorem completeFrom_eq {s s' : DisplayRing} {index : Nat}
    {statuses : List KernReturn} {done : List (UInt32 × KernReturn)}
    (h : s.completeFrom index statuses = some (s', done)) :
    s' = { s with
      tail := s'.tail
      inflight := s'.inflight
      frames := s'.frames
      holders := s'.holders
      completions := s'.completions } := by
  induction statuses generalizing s index done with
  | nil =>
      cases h
      rfl
  | cons status rest ih =>
      rw [completeFrom] at h
      cases hframes : s.frames with
      | nil =>
          rw [hframes] at h
          cases h
      | cons f later =>
          simp only [hframes] at h
          split at h
          · rcases Option.map_eq_some_iff.mp h with ⟨⟨t, tail⟩, htail, heq⟩
            cases heq
            have hrest := ih htail
            exact hrest
          · cases h

theorem deliver_eq (s : DisplayRing) (done : List (UInt32 × KernReturn)) :
    s.deliver done = { s with delivered := (s.deliver done).delivered } := by
  unfold deliver
  split <;> rfl

/-- The call moves on with the slot it has, and will not be accepted. -/
structure CallMoves (s : DisplayRing) (c : Nat) (state : BulkState) : Prop where
  slot : state.slot? = (s.calls c).slot?
  pending : state.pending? = none
  started : state ≠ .idle
  kept : state.isDropping = false

/-- What each action does when it is enabled. -/
inductive Performed (s : DisplayRing) : RingAct -> DisplayRing -> Prop where
  | move {a : RingAct} {c : Nat} {state : BulkState}
      (hmove : s.CallMoves c state) : Performed s a (s.setCall c state)
  | claim {c : Nat} {bytes : List UInt8} {seq : UInt32} {ready : Bool}
      (hcall : s.calls c = .idle) (hroom : s.inflight < displayRingDepth) :
      Performed s (.submit c (some bytes) seq ready) (s.claim c bytes seq)
  | drop {c slot : Nat} {bytes : List UInt8} {seq : UInt32} {bufNull : Bool}
      {range : KernReturn} {addressNull : Bool} {ret : KernReturn}
      (hcall : s.calls c = .claimed slot bytes seq)
      (hfail : bufNull = true ∨ range ≠ kIOReturnSuccess ∨ addressNull = true) :
      Performed s (.fill c bufNull range addressNull)
        (s.setCall c (.dropping slot ret))
  | copy {c slot : Nat} {bytes : List UInt8} {seq : UInt32} {bufNull : Bool}
      {range : KernReturn} {addressNull : Bool}
      (hcall : s.calls c = .claimed slot bytes seq) :
      Performed s (.fill c bufNull range addressNull) (s.copy c slot bytes seq)
  | abandon {c slot : Nat} {ret : KernReturn}
      (hcall : s.calls c = .dropping slot ret) :
      Performed s (.abandon c) (s.release c ret)
  | accept {c slot : Nat} {bytes : List UInt8} {seq : UInt32} {ret : KernReturn}
      {accepted : UInt32} (hcall : s.calls c = .filled slot bytes seq) :
      Performed s (.asyncIOBundled c ret accepted) (s.accept c slot seq)
  | rewind {c slot : Nat} {ret : KernReturn}
      (hcall : s.calls c = .refused slot ret) :
      Performed s (.rewind c) (s.rewind c slot ret)
  | complete {index : Nat} {statuses : List KernReturn} {s' : DisplayRing}
      {done : List (UInt32 × KernReturn)}
      (hloop : s.completeFrom index statuses = some (s', done)) :
      Performed s (.complete index statuses) (s'.deliver done)
  | setClient (attached : Bool) :
      Performed s (.setClient attached) { s with client := attached }

theorem performed_of_step {s s' : DisplayRing} {a : RingAct}
    (h : step s a = some s') : Performed s a s' := by
  cases a with
  | submit c bytes seq ready =>
      cases hcall : s.calls c <;> simp only [step, hcall] at h
      case idle =>
        have hreturn : forall ret, s.CallMoves c (.returned ret) := by
          intro ret
          exact ⟨by rw [hcall]; rfl, rfl, nofun, rfl⟩
        cases bytes with
        | none =>
            cases h
            exact .move (hreturn _)
        | some bytes =>
            simp only at h
            split_ifs at h
            · cases h
              exact .move (hreturn _)
            · cases h
              exact .move (hreturn _)
            · cases h
              by_cases hroom : s.inflight ≥ displayRingDepth
              · rw [claim, if_pos hroom]
                exact .move (hreturn _)
              · exact .claim hcall (Nat.lt_of_not_le hroom)
      all_goals cases h
  | fill c bufNull range addressNull =>
      cases hcall : s.calls c <;> simp only [step, hcall] at h
      case claimed slot bytes seq =>
        split_ifs at h
        · next hbuf =>
            cases h
            exact .drop hcall (Or.inl hbuf)
        · next hrange =>
            cases h
            exact .drop hcall (Or.inr (Or.inl hrange))
        · next haddress =>
            cases h
            exact .drop hcall (Or.inr (Or.inr haddress))
        · cases h
          exact .copy hcall
      all_goals cases h
  | abandon c =>
      cases hcall : s.calls c <;> simp only [step, hcall] at h
      all_goals cases h
      exact .abandon hcall
  | asyncIOBundled c ret accepted =>
      cases hcall : s.calls c <;> simp only [step, hcall] at h
      case filled slot bytes seq =>
        split at h
        · cases h
          exact .move ⟨by rw [hcall]; rfl, rfl, nofun, rfl⟩
        · cases h
          exact .accept hcall
      all_goals cases h
  | rewind c =>
      cases hcall : s.calls c <;> simp only [step, hcall] at h
      all_goals cases h
      exact .rewind hcall
  | complete index statuses =>
      simp only [step] at h
      split at h
      · rcases Option.map_eq_some_iff.mp h with ⟨⟨s'', done⟩, hloop, rfl⟩
        exact .complete hloop
      · cases h
  | setClient attached =>
      cases h
      exact .setClient attached

end DisplayRing

end Dext
end OpenMk3
