import OpenMk3.Dext.Start
import OpenMk3.Library.Ownership
import OpenMk3.Library.SlotMask
import OpenMk3.Library.Transition

/-!
# OUT slots of the HID transport

`SubmitHidOut` and `HandleHidOutComplete` over one atomic mask, any number of
them interleaved at the atomic operations: the load and the weak
compare-exchange of `claim_out_slot`, and the fetch-or of `release_out_slot`.
A claimed slot belongs to its submission until `AsyncIO` accepts the report, and
to the report until it completes.
-/

namespace OpenMk3
namespace Dext

open Library

def kIOReturnBadArgument : KernReturn := 0xe00002c2

def kIOReturnNotReady : KernReturn := 0xe00002d8

def kIOReturnNoResources : KernReturn := 0xe00002be

def hidOutBufferSize : Nat := 512

/-- The mask of free slots, one bit a slot. -/
abbrev OutMask : Type := BitVec 32

/-- Where one invocation of `SubmitHidOut` stands. -/
inductive SubmitState where
  | idle
  | entered
  -- `claim_out_slot` has read `cur`, which is not zero.
  | scanning (cur : OutMask)
  -- `claim_out_slot` returned -1.
  | ringFull
  | claimed (slot : Nat)
  | filled (slot : Nat)
  -- The slot is still to be released before `ret` is returned.
  | failing (slot : Nat) (ret : KernReturn)
  | returned (ret : KernReturn)
deriving DecidableEq, Repr

namespace SubmitState

def slot? : SubmitState -> Option Nat
  | claimed slot | filled slot | failing slot _ => some slot
  | _ => none

def isReturned : SubmitState -> Bool
  | returned _ => true
  | _ => false

end SubmitState

/-- The mask, the submissions, the slot of the report that each of them has in
flight, and the slot each compare-exchange took. -/
structure HidOut where
  outSlotFree : OutMask
  submissions : Nat -> SubmitState
  inFlight : Nat -> Option Nat
  taken : Nat -> Option Nat

inductive HidOutAct where
  | submit (call : Nat) (bytesNull : Bool) (length : Nat) (pipeNull : Bool)
  | load (call : Nat)
  -- The exchange may fail although the mask is as expected.
  | compareExchange (call : Nat) (spurious : Bool)
  | fill (call : Nat) (bufNull actNull : Bool) (range : KernReturn)
      (addressNull : Bool)
  | asyncIo (call : Nat) (ret : KernReturn)
  | release (call : Nat)
  | complete (call : Nat)

namespace HidOut

/-- The ring after `init`. -/
def init : HidOut where
  outSlotFree := (1 <<< hidOutRingDepth) - 1
  submissions _ := .idle
  inFlight _ := none
  taken _ := none

def setSubmission (s : HidOut) (c : Nat) (state : SubmitState) : HidOut :=
  { s with submissions := Function.update s.submissions c state }

def setReport (s : HidOut) (c : Nat) (report : Option Nat) : HidOut :=
  { s with inFlight := Function.update s.inFlight c report }

/-- The loop test of `claim_out_slot` on the mask just read. -/
def scan (cur : OutMask) : SubmitState :=
  if cur ≠ 0 then .scanning cur else .ringFull

/-- The exchange took the lowest slot of the expected mask. -/
def take (s : HidOut) (c : Nat) (cur : OutMask) : HidOut :=
  { s with
    outSlotFree := cur &&& ~~~(SlotMask.lowestBit cur)
    submissions := Function.update s.submissions c
      (.claimed (SlotMask.lowestSlot cur))
    taken := Function.update s.taken c (some (SlotMask.lowestSlot cur)) }

/-- `release_out_slot`. -/
def giveBack (s : HidOut) (slot : Nat) : HidOut :=
  { s with outSlotFree := s.outSlotFree ||| ((1 : OutMask) <<< slot) }

def step : Transition HidOut HidOutAct
  | s, .submit c bytesNull length pipeNull =>
      match s.submissions c with
      | .idle =>
          some (s.setSubmission c
            (if bytesNull ∨ length = 0 ∨ length > hidOutBufferSize then
              .returned kIOReturnBadArgument
            else if pipeNull then .returned kIOReturnNotReady
            else .entered))
      | _ => none
  | s, .load c =>
      match s.submissions c with
      | .entered => some (s.setSubmission c (scan s.outSlotFree))
      | _ => none
  | s, .compareExchange c spurious =>
      match s.submissions c with
      | .scanning cur =>
          if s.outSlotFree = cur ∧ spurious = false then some (s.take c cur)
          else some (s.setSubmission c (scan s.outSlotFree))
      | _ => none
  | s, .fill c bufNull actNull range addressNull =>
      match s.submissions c with
      | .claimed slot =>
          some (s.setSubmission c
            (if bufNull ∨ actNull then .failing slot kIOReturnNotReady
            else if range ≠ kIOReturnSuccess then .failing slot range
            else if addressNull then .failing slot kIOReturnNotReady
            else .filled slot))
      | _ => none
  | s, .asyncIo c ret =>
      match s.submissions c with
      | .filled slot =>
          if ret ≠ kIOReturnSuccess then
            some (s.setSubmission c (.failing slot ret))
          else
            some ((s.setSubmission c (.returned kIOReturnSuccess)).setReport c
              (some slot))
      | _ => none
  | s, .release c =>
      match s.submissions c with
      | .failing slot ret =>
          some ((s.giveBack slot).setSubmission c (.returned ret))
      | _ => none
  | s, .complete c =>
      match s.inFlight c with
      | some slot =>
          some ((s.giveBack slot).setReport c none)
      | none => none

/-- The call moves on without touching a slot: it keeps the one it has, and a
mask it read is looked at. -/
structure Moves (s : HidOut) (c : Nat) (state : SubmitState) : Prop where
  live : (s.submissions c).isReturned = false
  slot : state.slot? = (s.submissions c).slot?
  scanned : forall cur, state = .scanning cur -> cur ≠ 0
  full : state = .ringFull -> s.outSlotFree = 0

/-- What each action does when it is enabled. -/
inductive Performed (s : HidOut) : HidOutAct -> HidOut -> Prop where
  | move {a : HidOutAct} {c : Nat} {state : SubmitState}
      (hmove : Moves s c state) : Performed s a (s.setSubmission c state)
  | take {c : Nat} {spurious : Bool} {cur : OutMask}
      (hcall : s.submissions c = .scanning cur) (hmask : s.outSlotFree = cur) :
      Performed s (.compareExchange c spurious) (s.take c cur)
  | accept {c slot : Nat} {ret : KernReturn}
      (hcall : s.submissions c = .filled slot) :
      Performed s (.asyncIo c ret)
        ((s.setSubmission c (.returned kIOReturnSuccess)).setReport c
          (some slot))
  | release {c slot : Nat} {ret : KernReturn}
      (hcall : s.submissions c = .failing slot ret) :
      Performed s (.release c) ((s.giveBack slot).setSubmission c (.returned ret))
  | complete {c slot : Nat} (hreport : s.inFlight c = some slot) :
      Performed s (.complete c)
        ((s.giveBack slot).setReport c none)

theorem moves_scan {s : HidOut} {c : Nat}
    (hlive : (s.submissions c).isReturned = false)
    (hslot : (s.submissions c).slot? = none) :
    Moves s c (scan s.outSlotFree) := by
  unfold scan
  split
  · next hne =>
      exact ⟨hlive, hslot.symm, fun cur heq => by cases heq; exact hne, nofun⟩
  · next heq =>
      exact ⟨hlive, hslot.symm, nofun, fun _ => not_not.mp heq⟩

theorem performed_of_step {s s' : HidOut} {a : HidOutAct}
    (h : step s a = some s') : Performed s a s' := by
  cases a with
  | submit c bytesNull length pipeNull =>
      cases hcall : s.submissions c <;> simp only [step, hcall] at h
      all_goals cases h
      refine .move ⟨?_, ?_, ?_, ?_⟩
      · rw [hcall]
        rfl
      · rw [hcall]
        split_ifs <;> rfl
      · intro cur
        split_ifs <;> nofun
      · split_ifs <;> nofun
  | load c =>
      cases hcall : s.submissions c <;> simp only [step, hcall] at h
      all_goals cases h
      refine .move (moves_scan ?_ ?_)
      · rw [hcall]
        rfl
      · rw [hcall]
        rfl
  | compareExchange c spurious =>
      cases hcall : s.submissions c with
      | scanning cur =>
          simp only [step, hcall] at h
          split at h
          · next hsame =>
              cases h
              exact .take hcall hsame.left
          · cases h
            refine .move (moves_scan ?_ ?_)
            · rw [hcall]
              rfl
            · rw [hcall]
              rfl
      | _ =>
          simp only [step, hcall] at h
          cases h
  | fill c bufNull actNull range addressNull =>
      cases hcall : s.submissions c <;> simp only [step, hcall] at h
      all_goals cases h
      refine .move ⟨?_, ?_, ?_, ?_⟩
      · rw [hcall]
        rfl
      · rw [hcall]
        split_ifs <;> rfl
      · intro cur
        split_ifs <;> nofun
      · split_ifs <;> nofun
  | asyncIo c ret =>
      cases hcall : s.submissions c with
      | filled slot =>
          simp only [step, hcall] at h
          split at h
          · cases h
            refine .move ⟨?_, ?_, nofun, nofun⟩
            · rw [hcall]
              rfl
            · rw [hcall]
              rfl
          · cases h
            exact .accept hcall
      | _ =>
          simp only [step, hcall] at h
          cases h
  | release c =>
      cases hcall : s.submissions c <;> simp only [step, hcall] at h
      all_goals cases h
      exact .release hcall
  | complete c =>
      cases hreport : s.inFlight c <;> simp only [step, hreport] at h
      all_goals cases h
      exact .complete hreport

end HidOut

end Dext
end OpenMk3
