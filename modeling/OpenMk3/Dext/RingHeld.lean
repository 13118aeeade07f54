import OpenMk3.Dext.Ring
import OpenMk3.Library.RingWindow

/-!
# The held slots of the display ring

The slots held by unfinished submissions and by accepted frames are a window of
the ring from `tail` on, in the order of their claims.  A step keeps this when a
refused submission that rewinds is the newest holder and the frames that
complete belong to the oldest ones, unless it leaves without rewinding.
-/

namespace OpenMk3
namespace Dext

open Library

namespace DisplayRing

/-- What is known of one accepted frame. -/
structure FrameHeld (s : DisplayRing) (f : Frame) : Prop where
  mem : f.call ∈ s.holders
  given : s.given f.call = some f.slot
  slotSeq : s.slotSeq f.slot = f.seq
  finished : (s.calls f.call).slot? = none

/-- What is known of one submission. -/
structure CallHeld (s : DisplayRing) (c : Nat) : Prop where
  given : forall slot, (s.calls c).slot? = some slot ->
    c ∈ s.holders ∧ s.given c = some slot
  slotSeq : forall slot seq, (s.calls c).pending? = some (slot, seq) ->
    s.slotSeq slot = seq
  started : c ∈ s.holders -> s.calls c ≠ .idle

structure Held (s : DisplayRing) : Prop where
  window : RingWindow displayRingDepth s.tail s.holders s.given
  head : s.head = (s.tail + s.holders.length) % displayRingDepth
  count : s.inflight = s.holders.length
  calls : forall c, s.CallHeld c
  frames : forall f, f ∈ s.frames -> s.FrameHeld f
  distinct : (s.frames.map Frame.call).Nodup

/-- The steps that keep the window: a rewind by the newest holder, and the
completion of frames of the oldest ones. -/
def InOrder (s : DisplayRing) : RingAct -> Prop
  | .rewind c => s.holders.getLast? = some c
  | .complete _ statuses =>
      (s.frames.take statuses.length).map Frame.call <+: s.holders
  | _ => True

theorem held_init : Held init where
  window := ⟨Nat.zero_le _, nofun⟩
  head := rfl
  count := rfl
  calls _ := ⟨nofun, nofun, nofun⟩
  frames := nofun
  distinct := List.nodup_nil

theorem slot?_of_pending? {state : BulkState} {slot : Nat} {seq : UInt32}
    (h : state.pending? = some (slot, seq)) : state.slot? = some slot := by
  cases state <;> cases h
  · rfl
  · rfl

section Steps

variable {s s' : DisplayRing}

theorem CallHeld.congr {c : Nat} (h : s.CallHeld c)
    (hcall : s'.calls c = s.calls c) (hmem : c ∈ s'.holders <-> c ∈ s.holders)
    (hgiven : s'.given c = s.given c)
    (hseq : forall slot, (s.calls c).slot? = some slot ->
      s'.slotSeq slot = s.slotSeq slot) : s'.CallHeld c where
  given := by
    rw [hcall, hmem, hgiven]
    exact h.given
  slotSeq := by
    intro slot seq hpending
    rw [hcall] at hpending
    rw [hseq slot (slot?_of_pending? hpending)]
    exact h.slotSeq slot seq hpending
  started := by
    rw [hcall, hmem]
    exact h.started

/-- A step of one submission that leaves the slots of the others. -/
theorem calls_of_self (c : Nat) (h : forall d, s.CallHeld d)
    (hcall : forall d, d ≠ c -> s'.calls d = s.calls d)
    (hmem : forall d, d ≠ c -> (d ∈ s'.holders <-> d ∈ s.holders))
    (hgiven : forall d, d ≠ c -> s'.given d = s.given d)
    (hseq : forall d slot, d ≠ c -> (s.calls d).slot? = some slot ->
      s'.slotSeq slot = s.slotSeq slot) (hself : s'.CallHeld c) :
    forall d, s'.CallHeld d := by
  intro d
  by_cases hd : d = c
  · rw [hd]
    exact hself
  · exact (h d).congr (hcall d hd) (hmem d hd) (hgiven d hd)
      fun slot => hseq d slot hd

/-- A finished submission that holds no slot unless as a frame. -/
theorem callHeld_of_returned {c : Nat} {ret : KernReturn}
    (h : s.calls c = .returned ret) : s.CallHeld c where
  given := by
    rw [h]
    nofun
  slotSeq := by
    rw [h]
    nofun
  started := by
    rw [h]
    nofun

theorem FrameHeld.ne_of_slot {f : Frame} (h : s.FrameHeld f) {c slot : Nat}
    (hcall : (s.calls c).slot? = some slot) : f.call ≠ c := by
  intro heq
  have hnone := h.finished
  rw [heq, hcall] at hnone
  cases hnone

namespace Held

/-- The call moves on with the slot it has. -/
theorem setCall {c : Nat} {state : BulkState} (h : s.Held)
    (hslot : state.slot? = (s.calls c).slot?) (hpending : state.pending? = none)
    (hstarted : state ≠ .idle) : (s.setCall c state).Held where
  window := h.window
  head := h.head
  count := h.count
  calls := by
    refine calls_of_self c h.calls ?_ (fun _ _ => Iff.rfl) (fun _ _ => rfl)
      (fun _ _ _ _ => rfl) ?_
    · intro d hd
      exact Function.update_of_ne hd ..
    · have hstate : (s.setCall c state).calls c = state :=
        Function.update_self ..
      constructor
      · rw [hstate, hslot]
        exact (h.calls c).given
      · rw [hstate, hpending]
        nofun
      · rw [hstate]
        exact fun _ => hstarted
  frames := by
    intro f hf
    have hold := h.frames f hf
    refine ⟨hold.mem, hold.given, hold.slotSeq, ?_⟩
    by_cases hd : f.call = c
    · have hstate : (s.setCall c state).calls f.call = state := by
        rw [hd]
        exact Function.update_self ..
      rw [hstate, hslot, ← hd]
      exact hold.finished
    · have hstate : (s.setCall c state).calls f.call = s.calls f.call :=
        Function.update_of_ne hd ..
      rw [hstate]
      exact hold.finished
  distinct := h.distinct

theorem claim {c : Nat} (h : s.Held) (hcall : s.calls c = .idle)
    (hroom : s.inflight < displayRingDepth) (bytes : List UInt8)
    (seq : UInt32) : (s.claim c bytes seq).Held := by
  have hlt : s.holders.length < displayRingDepth := h.count ▸ hroom
  have hnew : c ∉ s.holders := fun hmem => (h.calls c).started hmem hcall
  have hother : forall d, d ∈ s.holders -> d ≠ c := by
    intro d hd heq
    exact hnew (heq ▸ hd)
  -- The slot at `head` is nobody's, so its sequence number may be replaced.
  have hfree : forall d slot, d ∈ s.holders -> s.given d = some slot ->
      slot ≠ s.head := by
    intro d slot hd hgiven heq
    rw [heq, h.head] at hgiven
    exact h.window.given_ne_next hlt hd hgiven
  rw [DisplayRing.claim, if_neg (Nat.not_le_of_lt hroom)]
  constructor
  · rw [h.head]
    exact h.window.push hlt hnew
  · simp only [DisplayRing.setCall, h.head, List.length_append, List.length_singleton,
      Nat.mod_add_mod, Nat.add_assoc]
  · simp only [h.count, List.length_append, List.length_singleton]
  · refine calls_of_self c h.calls ?_ ?_ ?_ ?_ ?_
    · intro d hd
      exact Function.update_of_ne hd ..
    · intro d hd
      simp [hd]
    · intro d hd
      exact Function.update_of_ne hd ..
    · intro d slot hd hslot
      have hheld := (h.calls d).given slot hslot
      exact Function.update_of_ne (hfree d slot hheld.left hheld.right) ..
    · constructor
      · intro slot hslot
        have heq : slot = s.head := by
          simpa [DisplayRing.setCall, BulkState.slot?, eq_comm] using hslot
        subst heq
        exact ⟨List.mem_append_right _ (List.mem_singleton.mpr rfl),
          Function.update_self ..⟩
      · intro slot seq' hpending
        have heq : slot = s.head ∧ seq' = seq := by
          simpa [DisplayRing.setCall, BulkState.pending?, eq_comm] using hpending
        rcases heq with ⟨rfl, rfl⟩
        exact Function.update_self ..
      · intro _
        simp [DisplayRing.setCall]
  · intro f hf
    have hold := h.frames f hf
    have hne := hother f.call hold.mem
    refine ⟨List.mem_append_left _ hold.mem, ?_, ?_, ?_⟩
    · rw [← hold.given]
      exact Function.update_of_ne hne ..
    · rw [← hold.slotSeq]
      exact Function.update_of_ne (hfree f.call f.slot hold.mem hold.given) ..
    · rw [← hold.finished]
      exact congrArg BulkState.slot? (Function.update_of_ne hne ..)
  · exact h.distinct

theorem copy {c slot : Nat} {bytes : List UInt8} {seq : UInt32} (h : s.Held)
    (hcall : s.calls c = .claimed slot bytes seq) :
    (s.copy c slot bytes seq).Held := by
  have hself : (s.copy c slot bytes seq).calls c = .filled slot bytes seq :=
    Function.update_self ..
  refine ⟨h.window, h.head, h.count, ?_, ?_, h.distinct⟩
  · refine calls_of_self c h.calls ?_ (fun _ _ => Iff.rfl) (fun _ _ => rfl)
      (fun _ _ _ _ => rfl) ?_
    · intro d hd
      exact Function.update_of_ne hd ..
    · have hclaimed := h.calls c
      constructor
      · rw [hself]
        intro slot' hslot
        exact hclaimed.given slot' (by rw [hcall]; exact hslot)
      · rw [hself]
        intro slot' seq' hpending
        exact hclaimed.slotSeq slot' seq' (by rw [hcall]; exact hpending)
      · rw [hself]
        nofun
  · intro f hf
    have hold := h.frames f hf
    have hne := hold.ne_of_slot (c := c) (by rw [hcall]; rfl)
    refine ⟨hold.mem, hold.given, hold.slotSeq, ?_⟩
    rw [← hold.finished]
    exact congrArg BulkState.slot? (Function.update_of_ne hne ..)

theorem accept {c slot : Nat} {bytes : List UInt8} {seq : UInt32} (h : s.Held)
    (hcall : s.calls c = .filled slot bytes seq) :
    (s.accept c slot seq).Held := by
  have hslot : (s.calls c).slot? = some slot := by
    rw [hcall]
    rfl
  have hself : (s.accept c slot seq).calls c = .returned kIOReturnSuccess :=
    Function.update_self ..
  refine ⟨h.window, h.head, h.count, ?_, ?_, ?_⟩
  · refine calls_of_self c h.calls ?_ (fun _ _ => Iff.rfl) (fun _ _ => rfl)
      (fun _ _ _ _ => rfl) (callHeld_of_returned hself)
    intro d hd
    exact Function.update_of_ne hd ..
  · intro f hf
    rcases List.mem_append.mp hf with hold | hnew
    · have hold := h.frames f hold
      have hne := hold.ne_of_slot hslot
      refine ⟨hold.mem, hold.given, hold.slotSeq, ?_⟩
      rw [← hold.finished]
      exact congrArg BulkState.slot? (Function.update_of_ne hne ..)
    · rw [List.mem_singleton.mp hnew]
      have hgiven := (h.calls c).given slot hslot
      have hseq := (h.calls c).slotSeq slot seq (by rw [hcall]; rfl)
      exact ⟨hgiven.left, hgiven.right, hseq, by rw [hself]; rfl⟩
  · have hnew : c ∉ s.frames.map Frame.call := by
      intro hmem
      rcases List.mem_map.mp hmem with ⟨f, hf, heq⟩
      exact (h.frames f hf).ne_of_slot hslot heq
    simp only [DisplayRing.accept, List.map_append, List.map_singleton]
    exact h.distinct.append (List.nodup_singleton c)
      (List.disjoint_singleton.mpr hnew)

/-- The newest holder leaves the window from the back. -/
theorem rewind {c slot : Nat} {ret : KernReturn} (h : s.Held)
    (hcall : s.calls c = .refused slot ret)
    (hlast : s.holders.getLast? = some c) : (s.rewind c slot ret).Held := by
  have hslot : (s.calls c).slot? = some slot := by
    rw [hcall]
    rfl
  have hself : (s.rewind c slot ret).calls c = .returned ret :=
    Function.update_self ..
  rcases List.getLast?_eq_some_iff.mp hlast with ⟨older, hholders⟩
  have hwindow := h.window
  have hnodup := h.window.nodup
  have hcount := h.count
  rw [hholders] at hwindow hnodup hcount
  have hnew : c ∉ older := by
    intro hmem
    exact (List.disjoint_of_nodup_append hnodup) hmem
      (List.mem_singleton.mpr rfl)
  have herase : (s.rewind c slot ret).holders = older := by
    show s.holders.erase c = older
    rw [hholders, List.erase_append_right _ hnew, List.erase_cons_head,
      List.append_nil]
  have hmem : forall d, d ≠ c ->
      (d ∈ (s.rewind c slot ret).holders <-> d ∈ s.holders) := by
    intro d hd
    rw [herase, hholders, List.mem_append, List.mem_singleton, or_iff_left hd]
  constructor
  · rw [herase]
    exact hwindow.pop_back
  · have hgiven := ((h.calls c).given slot hslot).right
    rw [hwindow.given_last] at hgiven
    rw [herase]
    exact (Option.some.inj hgiven).symm
  · rw [herase]
    rw [List.length_append, List.length_singleton] at hcount
    show (if s.inflight > 0 then s.inflight - 1 else s.inflight) = older.length
    rw [if_pos (by omega)]
    omega
  · refine calls_of_self c h.calls ?_ hmem (fun _ _ => rfl)
      (fun _ _ _ _ => rfl) (callHeld_of_returned hself)
    intro d hd
    exact Function.update_of_ne hd ..
  · intro f hf
    have hold := h.frames f hf
    have hne := hold.ne_of_slot hslot
    refine ⟨(hmem f.call hne).mpr hold.mem, hold.given, hold.slotSeq, ?_⟩
    rw [← hold.finished]
    exact congrArg BulkState.slot? (Function.update_of_ne hne ..)
  · exact h.distinct

/-- The frame of the oldest holder leaves the window from the front. -/
theorem completeOne {f : Frame} {later : List Frame} {younger : List Nat}
    (h : s.Held) (hframes : s.frames = f :: later)
    (hholders : s.holders = f.call :: younger) (status : KernReturn) :
    (s.completeOne status f later).Held := by
  have hwindow := h.window
  have hnodup := h.window.nodup
  have hcount := h.count
  have hhead := h.head
  have hdistinct := h.distinct
  rw [hholders] at hwindow hnodup hcount hhead
  rw [hframes, List.map_cons] at hdistinct
  rw [List.length_cons] at hcount hhead
  have herase : (s.completeOne status f later).holders = younger := by
    show s.holders.erase f.call = younger
    rw [hholders, List.erase_cons_head]
  have hmem : forall d, d ≠ f.call ->
      (d ∈ (s.completeOne status f later).holders <-> d ∈ s.holders) := by
    intro d hd
    rw [herase, hholders, List.mem_cons, or_iff_right hd]
  have hfirst := h.frames f (hframes ▸ List.mem_cons_self)
  constructor
  · rw [herase]
    exact hwindow.pop_front
  · rw [herase]
    show s.head = _
    rw [hhead, DisplayRing.completeOne, Nat.mod_add_mod, Nat.add_assoc,
      Nat.add_comm 1]
  · rw [herase]
    show (if s.inflight > 0 then s.inflight - 1 else s.inflight) =
      younger.length
    rw [if_pos (by omega)]
    omega
  · refine calls_of_self f.call h.calls (fun _ _ => rfl) hmem (fun _ _ => rfl)
      (fun _ _ _ _ => rfl) ?_
    have hold := h.calls f.call
    refine ⟨?_, hold.slotSeq, ?_⟩
    · intro slot hslot
      have hnone := hfirst.finished
      rw [show s.calls f.call =
        (s.completeOne status f later).calls f.call from rfl, hslot] at hnone
      cases hnone
    · intro _
      exact hold.started hfirst.mem
  · intro g hg
    have hold := h.frames g (hframes ▸ List.mem_cons_of_mem f hg)
    have hne : g.call ≠ f.call := by
      intro heq
      exact (List.nodup_cons.mp hdistinct).left
        (heq ▸ List.mem_map_of_mem hg)
    exact ⟨(hmem g.call hne).mpr hold.mem, hold.given, hold.slotSeq,
      hold.finished⟩
  · exact (List.nodup_cons.mp hdistinct).right

/-- The window does not depend on the client or what it was told. -/
theorem of_client (h : s.Held) (client : Bool)
    (delivered : List (UInt32 × KernReturn)) :
    Held { s with client := client, delivered := delivered } where
  window := h.window
  head := h.head
  count := h.count
  calls c := (h.calls c).congr rfl Iff.rfl rfl fun _ _ => rfl
  frames f hf := ⟨(h.frames f hf).mem, (h.frames f hf).given,
    (h.frames f hf).slotSeq, (h.frames f hf).finished⟩
  distinct := h.distinct

theorem deliver (h : s.Held) (done : List (UInt32 × KernReturn)) :
    (s.deliver done).Held := by
  unfold DisplayRing.deliver
  split
  · exact h.of_client s.client _
  · exact h

end Held

/-- The completion loop keeps the window and collects what the frames were
submitted with. -/
structure Completed (s s' : DisplayRing) (done : List (UInt32 × KernReturn)) :
    Prop where
  held : s'.Held
  reports : exists new : List Completion,
    s'.completions = s.completions ++ new ∧
      (forall x, x ∈ new -> x.attached = s.client) ∧
        done = new.map fun x => (x.frame.seq, x.status)

theorem completed_of_completeFrom {index : Nat} {statuses : List KernReturn}
    {done : List (UInt32 × KernReturn)} (h : s.Held)
    (horder : (s.frames.take statuses.length).map Frame.call <+: s.holders)
    (hloop : s.completeFrom index statuses = some (s', done)) :
    s.Completed s' done := by
  induction statuses generalizing s index done with
  | nil =>
      rw [completeFrom] at hloop
      cases hloop
      exact ⟨h, [], (List.append_nil _).symm, by simp, rfl⟩
  | cons status rest ih =>
      rw [completeFrom] at hloop
      cases hframes : s.frames with
      | nil =>
          rw [hframes] at hloop
          cases hloop
      | cons f later =>
          simp only [hframes] at hloop
          rw [hframes, List.length_cons, List.take_succ_cons,
            List.map_cons] at horder
          rcases List.cons_prefix_iff.mp horder with ⟨younger, hholders, hrest⟩
          split at hloop
          · next hslot =>
              rcases Option.map_eq_some_iff.mp hloop with
                ⟨⟨t, tail⟩, htail, heq⟩
              cases heq
              have hone := h.completeOne hframes hholders status
              have herase : (s.completeOne status f later).holders =
                  younger := by
                show s.holders.erase f.call = younger
                rw [hholders, List.erase_cons_head]
              have hnext := ih hone (herase ▸ hrest) htail
              rcases hnext.reports with ⟨new, hnew, hattached, htaileq⟩
              refine ⟨hnext.held,
                { frame := f, status := status, attached := s.client } :: new,
                ?_, ?_, ?_⟩
              · rw [hnew]
                exact List.append_assoc ..
              · intro x hx
                rcases List.mem_cons.mp hx with rfl | hx
                · rfl
                · exact hattached x hx
              · have hfirst := h.frames f (hframes ▸ List.mem_cons_self)
                rw [List.map_cons, ← htaileq, ← hslot, hfirst.slotSeq]
          · cases hloop

theorem step_held {a : RingAct} (h : s.Held) (horder : s.InOrder a)
    (habandon : forall c, a ≠ .abandon c) (hstep : step s a = some s') :
    s'.Held := by
  cases performed_of_step hstep with
  | move hmove => exact h.setCall hmove.slot hmove.pending hmove.started
  | claim hcall hroom => exact h.claim hcall hroom _ _
  | copy hcall => exact h.copy hcall
  | drop hcall hfail => exact h.setCall (by rw [hcall]; rfl) rfl nofun
  | abandon hcall => exact absurd rfl (habandon _)
  | accept hcall => exact h.accept hcall
  | rewind hcall => exact h.rewind hcall horder
  | complete hloop =>
      exact (completed_of_completeFrom h horder hloop).held.deliver _
  | setClient attached => exact h.of_client attached s.delivered

end Steps

end DisplayRing

end Dext
end OpenMk3
