import OpenMk3.Dext.HidSlots

/-!
# Ownership of the OUT slots

Every slot of the HID transport is free in the mask or owned by one unfinished
submission or by one report in flight, along every interleaving.
-/

namespace OpenMk3
namespace Dext

open Library

/-- Who can own a slot. -/
inductive SlotOwner where
  | submission (call : Nat)
  | report (call : Nat)
deriving DecidableEq, Repr

namespace HidOut

def owns (s : HidOut) : SlotOwner -> Option Nat
  | .submission c => (s.submissions c).slot?
  | .report c => s.inFlight c

def Free (s : HidOut) (i : Nat) : Prop :=
  s.outSlotFree.getLsbD i = true

/-- What is known of one invocation. -/
structure CallOk (s : HidOut) (c : Nat) : Prop where
  scanned : forall cur, s.submissions c = .scanning cur -> cur ≠ 0
  report : (s.submissions c).isReturned = false -> s.inFlight c = none
  taken : forall i, (s.submissions c).slot? = some i -> s.taken c = some i

structure Owned (s : HidOut) : Prop where
  slots : Ownership hidOutRingDepth s.owns s.Free
  calls : forall c, s.CallOk c

theorem free_init (i : Nat) : init.Free i <-> i < hidOutRingDepth := by
  have hbits : forall j : Fin 32,
      init.outSlotFree.getLsbD j = true <-> j.val < hidOutRingDepth := by
    decide
  by_cases hi : i < 32
  · exact hbits ⟨i, hi⟩
  · constructor
    · intro hfree
      exact absurd (BitVec.lt_of_getLsbD hfree) hi
    · intro hlt
      exact absurd (Nat.lt_trans hlt (by decide)) hi

theorem owned_init : Owned init where
  slots :=
    { unique := by
        intro o o' i ho
        cases o <;> cases ho
      owned_lt := by
        intro o i ho
        cases o <;> cases ho
      free_iff := by
        intro i
        have hnone : forall o, init.owns o ≠ some i := by
          intro o ho
          cases o <;> cases ho
        rw [and_iff_left hnone]
        exact free_init i }
  calls _ := ⟨nofun, fun _ => rfl, nofun⟩

/-!
## Owners under the updates
-/

section Updates

variable (s : HidOut) (c : Nat)

theorem owns_setSubmission (state : SubmitState) :
    (s.setSubmission c state).owns =
      Function.update s.owns (.submission c) state.slot? := by
  funext o
  cases o with
  | submission d =>
      by_cases hd : d = c
      · simp [owns, setSubmission, hd]
      · simp [owns, setSubmission, hd]
  | report d =>
      simp [owns, setSubmission]

theorem owns_setReport (report : Option Nat) :
    (s.setReport c report).owns =
      Function.update s.owns (.report c) report := by
  funext o
  cases o with
  | submission d =>
      simp [owns, setReport]
  | report d =>
      by_cases hd : d = c
      · simp [owns, setReport, hd]
      · simp [owns, setReport, hd]

theorem free_giveBack {slot : Nat} (hslot : slot < hidOutRingDepth) (i : Nat) :
    (s.giveBack slot).Free i <-> s.Free i ∨ i = slot := by
  have hlt : slot < 32 := Nat.lt_trans hslot (by decide)
  exact SlotMask.getLsbD_give s.outSlotFree hlt i

theorem free_take {cur : OutMask} (hmask : s.outSlotFree = cur)
    (hcur : cur ≠ 0) (i : Nat) :
    (s.take c cur).Free i <-> s.Free i ∧ i ≠ SlotMask.lowestSlot cur := by
  have htake := SlotMask.getLsbD_take hcur i
  unfold Free
  rw [hmask]
  exact htake

end Updates

/-!
## Steps
-/

section Steps

variable {s s' : HidOut}

theorem CallOk.congr {c : Nat} (h : s.CallOk c)
    (hcall : s'.submissions c = s.submissions c)
    (hreport : s'.inFlight c = s.inFlight c) (htaken : s'.taken c = s.taken c) :
    s'.CallOk c where
  scanned := hcall ▸ h.scanned
  report := hcall ▸ hreport ▸ h.report
  taken := hcall ▸ htaken ▸ h.taken

theorem callOk_of_returned {c : Nat} {ret : KernReturn}
    (h : s.submissions c = .returned ret) : s.CallOk c where
  scanned := by
    rw [h]
    nofun
  report := by
    rw [h]
    nofun
  taken := by
    rw [h]
    nofun

/-- A step of one call leaves what is known of the others. -/
theorem calls_of_self (c : Nat) (h : forall d, s.CallOk d)
    (hcall : forall d, d ≠ c -> s'.submissions d = s.submissions d)
    (hreport : forall d, d ≠ c -> s'.inFlight d = s.inFlight d)
    (htaken : forall d, d ≠ c -> s'.taken d = s.taken d) (hself : s'.CallOk c) :
    forall d, s'.CallOk d := by
  intro d
  by_cases hd : d = c
  · rw [hd]
    exact hself
  · exact (h d).congr (hcall d hd) (hreport d hd) (htaken d hd)

theorem Owned.move {c : Nat} {state : SubmitState} (h : s.Owned)
    (hmove : Moves s c state) : (s.setSubmission c state).Owned where
  slots := by
    have hsame : (s.setSubmission c state).owns = s.owns := by
      rw [owns_setSubmission, hmove.slot]
      exact Function.update_eq_self (SlotOwner.submission c) s.owns
    rw [hsame]
    exact h.slots
  calls := by
    refine calls_of_self c h.calls ?_ (fun _ _ => rfl) (fun _ _ => rfl) ?_
    · intro d hd
      exact Function.update_of_ne hd ..
    · have hstate : (s.setSubmission c state).submissions c = state :=
        Function.update_self ..
      refine ⟨?_, fun _ => (h.calls c).report hmove.live, ?_⟩
      · rw [hstate]
        exact hmove.scanned
      · rw [hstate, hmove.slot]
        exact (h.calls c).taken

theorem Owned.take {c : Nat} {cur : OutMask} (h : s.Owned)
    (hcall : s.submissions c = .scanning cur) (hmask : s.outSlotFree = cur) :
    (s.take c cur).Owned where
  slots := by
    have hcur := (h.calls c).scanned cur hcall
    have hnone : s.owns (.submission c) = none := by
      rw [owns, hcall]
      rfl
    have hfree : s.Free (SlotMask.lowestSlot cur) := by
      unfold Free
      rw [hmask]
      exact SlotMask.free_lowestSlot hcur
    have howns : (s.take c cur).owns =
        Function.update s.owns (.submission c)
          (some (SlotMask.lowestSlot cur)) :=
      owns_setSubmission s c (.claimed (SlotMask.lowestSlot cur))
    rw [howns]
    exact (h.slots.grant hnone hfree).congr_free (free_take s c hmask hcur)
  calls := by
    refine calls_of_self c h.calls ?_ (fun _ _ => rfl) ?_ ?_
    · intro d hd
      exact Function.update_of_ne hd ..
    · intro d hd
      exact Function.update_of_ne hd ..
    · have hstate : (s.take c cur).submissions c =
          .claimed (SlotMask.lowestSlot cur) := Function.update_self ..
      have htaken : (s.take c cur).taken c = some (SlotMask.lowestSlot cur) :=
        Function.update_self ..
      have hlive : (s.submissions c).isReturned = false := by
        rw [hcall]
        rfl
      refine ⟨?_, fun _ => (h.calls c).report hlive, ?_⟩
      · rw [hstate]
        nofun
      · rw [hstate, htaken]
        exact fun _ hi => hi

theorem Owned.accept {c slot : Nat} (h : s.Owned)
    (hcall : s.submissions c = .filled slot) :
    ((s.setSubmission c (.returned kIOReturnSuccess)).setReport c
      (some slot)).Owned where
  slots := by
    have hslot : s.owns (.submission c) = some slot := by
      rw [owns, hcall]
      rfl
    have hnone : s.owns (.report c) = none := by
      apply (h.calls c).report
      rw [hcall]
      rfl
    rw [owns_setReport, owns_setSubmission]
    exact h.slots.transfer hslot hnone
  calls := by
    refine calls_of_self c h.calls ?_ ?_ (fun _ _ => rfl) ?_
    · intro d hd
      exact Function.update_of_ne hd ..
    · intro d hd
      exact Function.update_of_ne hd ..
    · exact callOk_of_returned (Function.update_self ..)

theorem Owned.release {c slot : Nat} {ret : KernReturn} (h : s.Owned)
    (hcall : s.submissions c = .failing slot ret) :
    ((s.giveBack slot).setSubmission c (.returned ret)).Owned where
  slots := by
    have hslot : s.owns (.submission c) = some slot := by
      rw [owns, hcall]
      rfl
    have hlt := h.slots.owned_lt hslot
    rw [owns_setSubmission]
    exact (h.slots.giveBack hslot).congr_free (s.free_giveBack hlt)
  calls := by
    refine calls_of_self c h.calls ?_ (fun _ _ => rfl) (fun _ _ => rfl) ?_
    · intro d hd
      exact Function.update_of_ne hd ..
    · exact callOk_of_returned (Function.update_self ..)

theorem Owned.complete {c slot : Nat} (h : s.Owned)
    (hreport : s.inFlight c = some slot) :
    ((s.giveBack slot).setReport c none).Owned where
  slots := by
    have hslot : s.owns (.report c) = some slot := hreport
    have hlt := h.slots.owned_lt hslot
    rw [owns_setReport]
    exact (h.slots.giveBack hslot).congr_free (s.free_giveBack hlt)
  calls := by
    refine calls_of_self c h.calls (fun _ _ => rfl) ?_ (fun _ _ => rfl) ?_
    · intro d hd
      exact Function.update_of_ne hd ..
    · exact ⟨(h.calls c).scanned, fun _ => Function.update_self ..,
        (h.calls c).taken⟩

theorem step_owned {a : HidOutAct} (h : s.Owned) (hstep : step s a = some s') :
    s'.Owned := by
  cases performed_of_step hstep with
  | move hmove => exact h.move hmove
  | take hcall hmask => exact h.take hcall hmask
  | accept hcall => exact h.accept hcall
  | release hcall => exact h.release hcall
  | complete hreport => exact h.complete hreport

/-- A claim that gives up does so on reading a mask without a free slot. -/
theorem step_ringFull {a : HidOutAct} {c : Nat} (hstep : step s a = some s')
    (hbefore : s.submissions c ≠ .ringFull)
    (hafter : s'.submissions c = .ringFull) : s.outSlotFree = 0 := by
  have hupdate : forall (d : Nat) (state : SubmitState),
      Function.update s.submissions d state c = .ringFull ->
        state = .ringFull := by
    intro d state hfull
    by_cases hd : c = d
    · rw [hd, Function.update_self] at hfull
      exact hfull
    · rw [Function.update_of_ne hd] at hfull
      exact absurd hfull hbefore
  cases performed_of_step hstep with
  | move hmove => exact hmove.full (hupdate _ _ hafter)
  | take hcall hmask => exact absurd (hupdate _ _ hafter) nofun
  | accept hcall => exact absurd (hupdate _ _ hafter) nofun
  | release hcall => exact absurd (hupdate _ _ hafter) nofun
  | complete hreport => exact absurd hafter hbefore

/-- A failing submission sets the bit of the slot it took and no other. -/
theorem step_release {c : Nat} (h : s.Owned)
    (hstep : step s (.release c) = some s') :
    exists i, s.taken c = some i ∧ s.owns (.submission c) = some i ∧
      s'.owns (.submission c) = none ∧ forall j, s'.Free j <-> s.Free j ∨ j = i := by
  cases hcall : s.submissions c <;> simp only [step, hcall] at hstep
  all_goals cases hstep
  next slot ret =>
    have hslot : s.owns (.submission c) = some slot := by
      rw [owns, hcall]
      rfl
    refine ⟨slot, (h.calls c).taken slot hslot, hslot, ?_,
      s.free_giveBack (h.slots.owned_lt hslot)⟩
    rw [owns_setSubmission, Function.update_self]
    rfl

end Steps

/-!
## Runs
-/

theorem run_owned {actions : List HidOutAct} {s : HidOut}
    (h : Transition.run step init actions = some s) : s.Owned :=
  Transition.run_invariant_of_steps step (fun _ _ => True) owned_init
    (fun _ _ _ hinv _ hs => step_owned hinv hs) (fun _ _ _ _ _ => trivial) h

/-- Along every interleaving each slot has at most one owner, the mask shows
which are owned, at most four reports are in flight, a failing submission gives
back the slot it took, and a claim gives up only on a full ring. -/
theorem slots_owned_run {actions : List HidOutAct} {s : HidOut}
    (h : Transition.run step init actions = some s) :
    (forall (o o' : SlotOwner) (i : Nat), s.owns o = some i ->
      s.owns o' = some i -> o = o') ∧
    (forall i, i < hidOutRingDepth ->
      (s.outSlotFree.getLsbD i = false <-> exists o, s.owns o = some i)) ∧
    (forall calls : List Nat, calls.Nodup ->
      (forall c, c ∈ calls -> (s.inFlight c).isSome = true) ->
        calls.length ≤ hidOutRingDepth) ∧
    (forall (c : Nat) (s' : HidOut), step s (.release c) = some s' ->
      exists i, s.taken c = some i ∧ s.owns (.submission c) = some i ∧
        s'.owns (.submission c) = none ∧
        forall j, s'.outSlotFree.getLsbD j = true <->
          s.outSlotFree.getLsbD j = true ∨ j = i) ∧
    (forall (a : HidOutAct) (s' : HidOut) (c : Nat), step s a = some s' ->
      s.submissions c ≠ .ringFull -> s'.submissions c = .ringFull ->
        forall i, s.outSlotFree.getLsbD i = false) := by
  have hinv := run_owned h
  refine ⟨?_, ?_, ?_, ?_, ?_⟩
  · intro o o' i
    exact hinv.slots.unique
  · intro i hi
    rw [← hinv.slots.not_free_iff hi]
    exact Bool.not_eq_true _ ▸ Iff.rfl
  · intro calls hnodup hreports
    have hle := hinv.slots.length_le
      (hnodup.map (f := SlotOwner.report) (fun _ _ heq => by cases heq; rfl))
      (by
        intro o ho
        rcases List.mem_map.mp ho with ⟨c, hc, rfl⟩
        exact hreports c hc)
    rwa [List.length_map] at hle
  · intro c s' hstep
    exact step_release hinv hstep
  · intro a s' c hstep hbefore hafter i
    rw [step_ringFull hstep hbefore hafter]
    exact BitVec.getLsbD_zero

/-- A spurious failure, then a claim. -/
private def retriedClaim : List HidOutAct :=
  [.submit 0 false 42 false, .load 0, .compareExchange 0 true,
    .compareExchange 0 false]

theorem slots_owned_retriedClaim :
    exists s : HidOut, Transition.run step init retriedClaim = some s ∧
      (s.outSlotFree.getLsbD 0 = false <-> exists o, s.owns o = some 0) := by
  have hsome : (Transition.run step init retriedClaim).isSome = true := by
    decide
  rcases Option.isSome_iff_exists.mp hsome with ⟨s, hs⟩
  exact ⟨s, hs, (slots_owned_run hs).right.left 0 (by decide)⟩

end HidOut

end Dext
end OpenMk3
