import OpenMk3.Dext.RingHeld

/-!
# Overlapping submissions

Which slot a submission is given while others are unfinished.  Claims never
collide as long as only the newest holder rewinds and frames complete in the
order of their claims; a rewind by an older submission hands the slots of the
later ones out again.
-/

namespace OpenMk3
namespace Dext

open Library

namespace DisplayRing

/-- No frame and no unfinished submission has the slot. -/
structure Vacant (s : DisplayRing) (slot : Nat) : Prop where
  frames : forall f, f ∈ s.frames -> f.slot ≠ slot
  calls : forall c, (s.calls c).slot? ≠ some slot

/-- The claim of a step is for a vacant slot. -/
def ClaimsVacant (s : DisplayRing) (a : RingAct) : Prop :=
  forall s' c slot bytes seq, step s a = some s' -> s.calls c = .idle ->
    s'.calls c = .claimed slot bytes seq -> s.Vacant slot

/-- Every buffer is there and has an address; `AsyncIOBundled` alone can
fail. -/
def OnlyRefusals : RingAct -> Prop
  | .fill _ bufNull range addressNull =>
      bufNull = false ∧ range = kIOReturnSuccess ∧ addressNull = false
  | _ => True

section Steps

variable {s s' : DisplayRing}

theorem Held.vacant_head (h : s.Held) (hroom : s.inflight < displayRingDepth) :
    s.Vacant s.head := by
  have hlt : s.holders.length < displayRingDepth := h.count ▸ hroom
  have hfree : forall c, c ∈ s.holders -> s.given c ≠ some s.head := by
    intro c hc
    rw [h.head]
    exact h.window.given_ne_next hlt hc
  constructor
  · intro f hf heq
    have hheld := h.frames f hf
    exact hfree f.call hheld.mem (heq ▸ hheld.given)
  · intro c hslot
    have hheld := (h.calls c).given s.head hslot
    exact hfree c hheld.left hheld.right

/-- A submission that starts is given the slot at `head`, and only while the
ring has room. -/
theorem claim_of_step {a : RingAct} {c slot : Nat} {bytes : List UInt8}
    {seq : UInt32} (hstep : step s a = some s') (hidle : s.calls c = .idle)
    (hclaimed : s'.calls c = .claimed slot bytes seq) :
    s.inflight < displayRingDepth ∧ slot = s.head := by
  have hupdate : forall (d : Nat) (state : BulkState),
      Function.update s.calls d state c = .claimed slot bytes seq ->
        c = d ∧ state = .claimed slot bytes seq := by
    intro d state hstate
    by_cases hd : c = d
    · rw [hd, Function.update_self] at hstate
      exact ⟨hd, hstate⟩
    · rw [Function.update_of_ne hd, hidle] at hstate
      cases hstate
  cases performed_of_step hstep with
  | move hmove =>
      have hstate := (hupdate _ _ hclaimed).right
      have hpending := hmove.pending
      rw [hstate] at hpending
      cases hpending
  | claim hcall hroom =>
      rw [claim, if_neg (Nat.not_le_of_lt hroom)] at hclaimed
      cases (hupdate _ _ hclaimed).right
      exact ⟨hroom, rfl⟩
  | drop hcall hfail => cases (hupdate _ _ hclaimed).right
  | copy hcall => cases (hupdate _ _ hclaimed).right
  | abandon hcall => cases (hupdate _ _ hclaimed).right
  | accept hcall => cases (hupdate _ _ hclaimed).right
  | rewind hcall => cases (hupdate _ _ hclaimed).right
  | complete hloop =>
      rw [deliver_eq, completeFrom_eq hloop] at hclaimed
      rw [show s.calls c = _ from hclaimed] at hidle
      cases hidle
  | setClient attached =>
      rw [hidle] at hclaimed
      cases hclaimed

theorem Held.claimsVacant (h : s.Held) (a : RingAct) : s.ClaimsVacant a := by
  intro s' c slot bytes seq hstep hidle hclaimed
  rcases claim_of_step hstep hidle hclaimed with ⟨hroom, rfl⟩
  exact h.vacant_head hroom

def NoneDropping (s : DisplayRing) : Prop :=
  forall c, (s.calls c).isDropping = false

theorem step_noneDropping {a : RingAct} (h : s.NoneDropping)
    (honly : OnlyRefusals a) (hstep : step s a = some s') :
    s'.NoneDropping := by
  have hupdate : forall (c : Nat) (state : BulkState),
      state.isDropping = false -> forall d,
        (Function.update s.calls c state d).isDropping = false := by
    intro c state hstate d
    by_cases hd : d = c
    · rw [hd, Function.update_self]
      exact hstate
    · rw [Function.update_of_ne hd]
      exact h d
  cases performed_of_step hstep with
  | move hmove => exact hupdate _ _ hmove.kept
  | claim hcall hroom =>
      intro d
      rw [claim, if_neg (Nat.not_le_of_lt hroom)]
      exact hupdate _ _ rfl d
  | drop hcall hfail =>
      rcases honly with ⟨hbuf, hrange, haddress⟩
      rcases hfail with hfail | hfail | hfail
      · rw [hbuf] at hfail
        cases hfail
      · exact absurd hrange hfail
      · rw [haddress] at hfail
        cases hfail
  | copy hcall => exact hupdate _ _ rfl
  | abandon hcall => exact hupdate _ _ rfl
  | accept hcall => exact hupdate _ _ rfl
  | rewind hcall => exact hupdate _ _ rfl
  | complete hloop =>
      rw [deliver_eq, completeFrom_eq hloop]
      exact h
  | setClient attached => exact h

/-- A submission can only abandon its slot from a missing buffer. -/
theorem not_abandon_of_noneDropping {a : RingAct} (h : s.NoneDropping)
    (hstep : step s a = some s') (c : Nat) : a ≠ .abandon c := by
  rintro rfl
  have hc := h c
  cases hcall : s.calls c with
  | dropping slot ret =>
      rw [hcall] at hc
      cases hc
  | _ =>
      simp only [step, hcall] at hstep
      cases hstep

end Steps

/-- Along every run of overlapping submissions whose rewinds are by the newest
holder and whose completions are of the oldest ones, no submission is given a
slot that a frame or another submission has. -/
theorem claims_vacant_run {actions : List RingAct} {s : DisplayRing}
    (h : Transition.run step init actions = some s)
    (honly : forall a, a ∈ actions -> OnlyRefusals a)
    (horder : forall pre a t, pre ++ [a] <+: actions ->
      Transition.run step init pre = some t -> t.InOrder a) (a : RingAct) :
    s.ClaimsVacant a := by
  let Inv : DisplayRing -> Prop := fun t => t.Held ∧ t.NoneDropping
  have hinit : Inv init := ⟨held_init, fun _ => rfl⟩
  have hstep : forall t b t', Inv t -> (OnlyRefusals b ∧ t.InOrder b) ->
      step t b = some t' -> Inv t' := by
    intro t b t' hinv hok hstep
    exact ⟨step_held hinv.left hok.right
      (not_abandon_of_noneDropping hinv.right hstep) hstep,
      step_noneDropping hinv.right hok.left hstep⟩
  have hok : forall pre b t, pre ++ [b] <+: actions ->
      Transition.run step init pre = some t ->
        OnlyRefusals b ∧ t.InOrder b := by
    intro pre b t hpre ht
    exact ⟨honly b (hpre.subset (by simp)), horder pre b t hpre ht⟩
  have hinv : Inv s := Transition.run_invariant_of_steps step
    (fun t b => OnlyRefusals b ∧ t.InOrder b) hinit hstep hok h
  exact hinv.left.claimsVacant a

/-- Two submissions, one accepted. -/
private def inOrderRun : List RingAct :=
  [.submit 0 (some [1]) 1 true, .submit 1 (some [2]) 2 true,
    .fill 0 false 0 false, .asyncIOBundled 0 0 1]

theorem claims_vacant_inOrderRun :
    exists s, Transition.run step init inOrderRun = some s ∧
      s.ClaimsVacant (.submit 2 (some [3]) 3 true) := by
  have hsome : (Transition.run step init inOrderRun).isSome = true := by decide
  rcases Option.isSome_iff_exists.mp hsome with ⟨s, hs⟩
  have honly : forall a, a ∈ inOrderRun -> OnlyRefusals a := by
    unfold inOrderRun
    simp [OnlyRefusals, kIOReturnSuccess]
  have horder : forall t a, a ∈ inOrderRun -> InOrder t a := by
    unfold inOrderRun
    simp [InOrder]
  exact ⟨s, hs, claims_vacant_run hs honly
    (fun pre a t hpre _ => horder t a (hpre.subset (by simp))) _⟩

/-- The first of two submissions is refused after the second one claimed, and
two more follow. -/
private def staleRewind : List RingAct :=
  [.submit 0 (some [1]) 1 true, .submit 1 (some [2]) 2 true,
    .fill 0 false 0 false, .asyncIOBundled 0 0xe00002be 0,
    .fill 1 false 0 false, .asyncIOBundled 1 0 1, .rewind 0,
    .submit 2 (some [3]) 3 true]

theorem staleRewind_not_vacant :
    Not (forall actions s, Transition.run step init actions = some s ->
      (forall a, a ∈ actions -> OnlyRefusals a) -> forall a, s.ClaimsVacant a) := by
  intro h
  have hsome : (Transition.run step init staleRewind).isSome = true := by decide
  rcases Option.isSome_iff_exists.mp hsome with ⟨s, hs⟩
  have hlast : (Transition.run step init staleRewind).map (fun s =>
      (s.calls 3, s.frames, (step s (.submit 3 (some [4]) 4 true)).map
        fun s' => s'.calls 3)) =
      some (.idle, [{ call := 1, slot := 1, seq := 2 }],
        some (.claimed 1 [4] 4)) := by
    decide
  rw [hs, Option.map_some, Option.some.injEq, Prod.mk.injEq,
    Prod.mk.injEq] at hlast
  rcases hlast with ⟨hidle, hframes, hclaim⟩
  rcases Option.map_eq_some_iff.mp hclaim with ⟨s', hstep, hclaimed⟩
  have honly : forall a, a ∈ staleRewind -> OnlyRefusals a := by
    unfold staleRewind
    simp [OnlyRefusals, kIOReturnSuccess]
  have hvacant := h staleRewind s hs honly _ s' 3 1 [4] 4 hstep hidle hclaimed
  have hframe := hvacant.frames { call := 1, slot := 1, seq := 2 } (by
    rw [hframes]
    exact List.mem_singleton.mpr rfl)
  exact hframe rfl

end DisplayRing

end Dext
end OpenMk3
