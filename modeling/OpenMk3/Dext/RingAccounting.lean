import OpenMk3.Dext.RingOverlap

/-!
# Ring accounting

Submissions one after the other, with every failure point, and completions in
between.  The counters describe the accepted frames whenever no submission is in
progress, just until a submission leaves through the exits that give the count
back without rewinding `head`.
-/

namespace OpenMk3
namespace Dext

open Library

def RingAct.isSubmit : RingAct -> Bool
  | .submit _ _ _ _ => true
  | _ => false

def RingAct.isAbandon : RingAct -> Bool
  | .abandon _ => true
  | _ => false

namespace DisplayRing

/-- No submission is in progress. -/
def Quiescent (s : DisplayRing) : Prop :=
  forall c, (s.calls c).slot? = none

/-- Each submission runs to completion before the next one starts. -/
def Sequential (actions : List RingAct) : Prop :=
  forall pre a t, pre ++ [a] <+: actions ->
    Transition.run step init pre = some t -> a.isSubmit = true -> t.Quiescent

/-- The counters and the slots of the accepted frames. -/
structure Counted (s : DisplayRing) : Prop where
  inflight : s.inflight = s.frames.length
  slots : s.frames.map Frame.slot =
    (List.range s.inflight).map fun i => (s.tail + i) % displayRingDepth
  head : s.head = (s.tail + s.inflight) % displayRingDepth

/-- Every completed frame was reported once to the client attached then, with
the sequence number it was submitted with and its own status. -/
def Reported (s : DisplayRing) : Prop :=
  s.delivered = s.completions.filterMap Completion.report?

/-- A step of a submission that writes the sequence number or the buffer of a
slot. -/
inductive Writes (s : DisplayRing) (slot : Nat) : RingAct -> Prop where
  | slotSeq {c : Nat} {bytes : Option (List UInt8)} {copied : List UInt8}
      {seq : UInt32} {ready : Bool} {s' : DisplayRing}
      (hstep : step s (.submit c bytes seq ready) = some s')
      (hcall : s'.calls c = .claimed slot copied seq) :
      Writes s slot (.submit c bytes seq ready)
  | buffer {c : Nat} {copied : List UInt8} {seq : UInt32} {bufNull : Bool}
      {range : KernReturn} {addressNull : Bool} {s' : DisplayRing}
      (hstep : step s (.fill c bufNull range addressNull) = some s')
      (hcall : s'.calls c = .filled slot copied seq) :
      Writes s slot (.fill c bufNull range addressNull)

/-- The step writes no slot in flight. -/
def Separate (s : DisplayRing) (a : RingAct) : Prop :=
  forall slot, s.Writes slot a -> forall f, f ∈ s.frames -> f.slot ≠ slot

/-- What holds along a run, up to each of its states. -/
def Lawful (actions : List RingAct) : Prop :=
  forall pre t, pre <+: actions -> Transition.run step init pre = some t ->
    (t.Quiescent -> t.Counted) ∧ t.Reported ∧
      forall a, pre ++ [a] <+: actions -> t.Separate a

/-!
## What is written
-/

section Written

variable {s s' : DisplayRing}

/-- The slots a step does not write keep their sequence number and buffer. -/
theorem step_unwritten {a : RingAct} (hstep : step s a = some s') {i : Nat}
    (hi : Not (s.Writes i a)) :
    s'.slotSeq i = s.slotSeq i ∧ s'.buffer i = s.buffer i := by
  cases performed_of_step hstep with
  | move hmove => exact ⟨rfl, rfl⟩
  | @claim c bytes seq ready hcall hroom =>
      have hclaim : s.claim c bytes seq = _ :=
        if_neg (Nat.not_le_of_lt hroom)
      have hne : i ≠ s.head := by
        rintro rfl
        have hcalls : (s.claim c bytes seq).calls c =
            .claimed s.head bytes seq := by
          rw [hclaim]
          exact Function.update_self ..
        exact hi (.slotSeq hstep hcalls)
      rw [hclaim]
      exact ⟨Function.update_of_ne hne .., rfl⟩
  | drop hcall hfail => exact ⟨rfl, rfl⟩
  | @copy c slot bytes seq bufNull range addressNull hcall =>
      have hne : i ≠ slot := by
        rintro rfl
        exact hi (.buffer hstep (Function.update_self ..))
      exact ⟨rfl, Function.update_of_ne hne ..⟩
  | abandon hcall => exact ⟨rfl, rfl⟩
  | accept hcall => exact ⟨rfl, rfl⟩
  | rewind hcall => exact ⟨rfl, rfl⟩
  | complete hloop =>
      rw [deliver_eq, completeFrom_eq hloop]
      exact ⟨rfl, rfl⟩
  | setClient attached => exact ⟨rfl, rfl⟩

theorem idle_of_submit {c : Nat} {bytes : Option (List UInt8)} {seq : UInt32}
    {ready : Bool} (hstep : step s (.submit c bytes seq ready) = some s') :
    s.calls c = .idle := by
  cases hcall : s.calls c with
  | idle => rfl
  | _ =>
      simp only [step, hcall] at hstep
      cases hstep

theorem claimed_of_fill {c slot : Nat} {bytes : List UInt8} {seq : UInt32}
    {bufNull : Bool} {range : KernReturn} {addressNull : Bool}
    (hstep : step s (.fill c bufNull range addressNull) = some s')
    (hcall : s'.calls c = .filled slot bytes seq) :
    (s.calls c).slot? = some slot := by
  cases hprior : s.calls c with
  | claimed slot' bytes' seq' =>
      simp only [step, hprior] at hstep
      split_ifs at hstep
      all_goals
        cases hstep
        have hself := (Function.update_self ..).symm.trans hcall
        cases hself
      rfl
  | _ =>
      simp only [step, hprior] at hstep
      cases hstep

theorem Held.separate (h : s.Held) (a : RingAct) : s.Separate a := by
  intro slot hwrites f hf
  cases hwrites with
  | slotSeq hstep hcall =>
      exact (h.claimsVacant _ _ _ _ _ _ hstep (idle_of_submit hstep)
        hcall).frames f hf
  | buffer hstep hcall =>
      have hslot := claimed_of_fill hstep hcall
      have hframe := h.frames f hf
      have hclaimed := (h.calls _).given slot hslot
      rintro rfl
      exact hframe.ne_of_slot hslot (h.window.given_inj hframe.mem hclaimed.left
        (hframe.given.trans hclaimed.right.symm))

end Written

/-!
## One submission at a time
-/

/-- The holders are the accepted frames and then the submission in progress, if
there is one. -/
def OneOpen (s : DisplayRing) (current : Option Nat) : Prop :=
  s.holders = s.frames.map Frame.call ++ current.toList ∧
    forall c, (s.calls c).slot?.isSome = true <-> current = some c

section Sequential

variable {s s' : DisplayRing}

theorem OneOpen.of_slots {current : Option Nat} (h : s.OneOpen current)
    (hholders : s'.holders = s.holders) (hframes : s'.frames = s.frames)
    (hslots : forall c, (s'.calls c).slot? = (s.calls c).slot?) :
    s'.OneOpen current := by
  refine ⟨by rw [hholders, hframes]; exact h.left, ?_⟩
  intro c
  rw [hslots]
  exact h.right c

theorem OneOpen.setCall {current : Option Nat} (h : s.OneOpen current) {c : Nat}
    {state : BulkState} (hslot : state.slot? = (s.calls c).slot?) :
    (s.setCall c state).OneOpen current := by
  refine h.of_slots rfl rfl ?_
  intro d
  by_cases hd : d = c
  · subst hd
    rw [← hslot]
    exact congrArg BulkState.slot? (Function.update_self ..)
  · exact congrArg BulkState.slot? (Function.update_of_ne hd ..)

theorem OneOpen.eq_none {current : Option Nat} (h : s.OneOpen current)
    (hquiet : s.Quiescent) : current = none := by
  cases current with
  | none => rfl
  | some c =>
      have hsome := (h.right c).mpr rfl
      rw [hquiet c] at hsome
      cases hsome

theorem OneOpen.eq_some {current : Option Nat} (h : s.OneOpen current)
    {c slot : Nat} (hslot : (s.calls c).slot? = some slot) :
    current = some c := by
  apply (h.right c).mp
  rw [hslot]
  rfl

/-- The submission in progress finished; no slot is claimed any more. -/
theorem OneOpen.quiet_of_returned {c : Nat} {ret : KernReturn}
    (h : s.OneOpen (some c))
    (hcalls : s'.calls = Function.update s.calls c (.returned ret)) :
    s'.Quiescent := by
  intro d
  rw [hcalls]
  by_cases hd : d = c
  · rw [hd, Function.update_self]
    rfl
  · rw [Function.update_of_ne hd]
    cases hslot : (s.calls d).slot? with
    | none => rfl
    | some slot =>
        cases h.eq_some hslot
        exact absurd rfl hd

theorem oneOpen_none (hquiet : s.Quiescent)
    (hholders : s.holders = s.frames.map Frame.call) : s.OneOpen none := by
  refine ⟨hholders.trans (List.append_nil _).symm, ?_⟩
  intro c
  rw [hquiet c]
  exact iff_of_false Bool.false_ne_true nofun

theorem OneOpen.completeFrom {current : Option Nat} {index : Nat}
    {statuses : List KernReturn} {done : List (UInt32 × KernReturn)}
    (h : s.OneOpen current)
    (hloop : s.completeFrom index statuses = some (s', done)) :
    s'.OneOpen current := by
  induction statuses generalizing s index done with
  | nil =>
      cases hloop
      exact h
  | cons status rest ih =>
      rw [DisplayRing.completeFrom] at hloop
      cases hframes : s.frames with
      | nil =>
          rw [hframes] at hloop
          cases hloop
      | cons f later =>
          simp only [hframes] at hloop
          split at hloop
          · rcases Option.map_eq_some_iff.mp hloop with ⟨⟨t, tail⟩, htail, heq⟩
            cases heq
            have hholders := h.left
            rw [hframes] at hholders
            have hone : (s.completeOne status f later).OneOpen current := by
              refine ⟨?_, h.right⟩
              show s.holders.erase f.call = _
              rw [hholders]
              exact List.erase_cons_head ..
            have hrest := ih hone htail
            exact hrest
          · cases hloop

/-- The frames that complete are those of the oldest holders. -/
theorem OneOpen.inOrder {current : Option Nat} {a : RingAct}
    (h : s.OneOpen current) (hstep : step s a = some s') : s.InOrder a := by
  cases a with
  | rewind c =>
      cases hcall : s.calls c with
      | refused slot ret =>
          have hcurrent := h.eq_some (c := c) (by rw [hcall]; rfl)
          show s.holders.getLast? = some c
          rw [h.left, hcurrent]
          exact List.getLast?_concat
      | _ =>
          simp only [step, hcall] at hstep
          cases hstep
  | complete index statuses =>
      show (s.frames.take _).map Frame.call <+: s.holders
      rw [h.left]
      exact ((List.take_prefix _ _).map Frame.call).trans
        (List.prefix_append _ _)
  | _ => trivial

theorem step_oneOpen {current : Option Nat} {a : RingAct} (hheld : s.Held)
    (h : s.OneOpen current) (hsubmit : a.isSubmit = true -> s.Quiescent)
    (habandon : forall c, a ≠ .abandon c) (hstep : step s a = some s') :
    exists current', s'.OneOpen current' := by
  cases performed_of_step hstep with
  | move hmove => exact ⟨current, h.setCall hmove.slot⟩
  | @claim c bytes seq ready hcall hroom =>
      have hquiet := hsubmit rfl
      have hholders := h.left
      rw [h.eq_none hquiet] at hholders
      rw [DisplayRing.claim, if_neg (Nat.not_le_of_lt hroom)]
      refine ⟨some c, ?_, ?_⟩
      · show s.holders ++ [c] = _
        rw [hholders]
        exact congrArg (· ++ [c]) (List.append_nil _)
      · intro d
        show (Function.update s.calls c _ d).slot?.isSome = true <-> _
        by_cases hd : d = c
        · rw [hd, Function.update_self]
          exact iff_of_true rfl rfl
        · rw [Function.update_of_ne hd, hquiet d]
          exact iff_of_false Bool.false_ne_true
            fun heq => hd (Option.some.inj heq).symm
  | drop hcall hfail => exact ⟨current, h.setCall (by rw [hcall]; rfl)⟩
  | @copy c slot bytes seq bufNull range addressNull hcall =>
      have hmoved : (s.setCall c (.filled slot bytes seq)).OneOpen current :=
        h.setCall (by rw [hcall]; rfl)
      exact ⟨current, hmoved.of_slots rfl rfl fun _ => rfl⟩
  | abandon hcall => exact absurd rfl (habandon _)
  | @accept c slot bytes seq ret accepted hcall =>
      have hcurrent := h.eq_some (c := c) (by rw [hcall]; rfl)
      rw [hcurrent] at h
      refine ⟨none, oneOpen_none (h.quiet_of_returned rfl) ?_⟩
      show s.holders = (s.frames ++ [_]).map Frame.call
      rw [h.left, List.map_append]
      rfl
  | @rewind c slot ret hcall =>
      have hcurrent := h.eq_some (c := c) (by rw [hcall]; rfl)
      rw [hcurrent] at h
      refine ⟨none, oneOpen_none (h.quiet_of_returned rfl) ?_⟩
      have hnodup := hheld.window.nodup
      rw [h.left] at hnodup
      show s.holders.erase c = s.frames.map Frame.call
      rw [h.left, List.erase_append_right _ ?_]
      · simp
      · intro hmem
        exact (List.disjoint_of_nodup_append hnodup) hmem
          (List.mem_singleton.mpr rfl)
  | complete hloop =>
      refine ⟨current, (h.completeFrom hloop).of_slots ?_ ?_ ?_⟩
      · rw [deliver_eq]
      · rw [deliver_eq]
      · intro c
        rw [deliver_eq]
  | setClient attached => exact ⟨current, h⟩

/-- The accepted frames fill the window of a quiescent ring. -/
theorem Held.counted {current : Option Nat} (hheld : s.Held)
    (h : s.OneOpen current) (hquiet : s.Quiescent) : s.Counted := by
  have hholders := h.left
  rw [h.eq_none hquiet, Option.toList_none, List.append_nil] at hholders
  have hlength : s.holders.length = s.frames.length := by
    rw [hholders, List.length_map]
  have hcount : s.inflight = s.frames.length := hheld.count.trans hlength
  refine ⟨hcount, ?_, ?_⟩
  · apply List.ext_getElem?
    intro i
    rw [hcount, List.getElem?_map, List.getElem?_map]
    cases hf : s.frames[i]? with
    | none =>
        have hle := List.getElem?_eq_none_iff.mp hf
        rw [List.getElem?_eq_none (by rw [List.length_range]; exact hle)]
        rfl
    | some f =>
        have hlt := (List.getElem?_eq_some_iff.mp hf).1
        have hholder : s.holders[i]? = some f.call := by
          rw [hholders, List.getElem?_map, hf]
          rfl
        have hgiven := (hheld.frames f (List.mem_of_getElem? hf)).given
        rw [hheld.window.slots i f.call hholder] at hgiven
        rw [List.getElem?_range hlt]
        exact hgiven.symm
  · rw [hheld.head, hheld.count]

/-- The loop's notifications are those of the completions it adds. -/
theorem filterMap_report? {client : Bool} {new : List Completion}
    (h : forall x, x ∈ new -> x.attached = client) :
    new.filterMap Completion.report? =
      if client then new.map fun x => (x.frame.seq, x.status) else [] := by
  cases client with
  | false =>
      apply List.filterMap_eq_nil_iff.mpr
      intro x hx
      rw [Completion.report?, h x hx]
      rfl
  | true =>
      rw [if_pos rfl, ← List.filterMap_eq_map]
      apply List.filterMap_congr
      intro x hx
      rw [Completion.report?, h x hx]
      rfl

theorem step_reported {a : RingAct} (hheld : s.Held) (horder : s.InOrder a)
    (h : s.Reported) (hstep : step s a = some s') : s'.Reported := by
  cases performed_of_step hstep with
  | claim hcall hroom =>
      rw [DisplayRing.claim, if_neg (Nat.not_le_of_lt hroom)]
      exact h
  | @complete index statuses t done hloop =>
      rcases (completed_of_completeFrom hheld horder hloop).reports with
        ⟨new, hnew, hattached, hdone⟩
      have hclient : t.client = s.client := by rw [completeFrom_eq hloop]
      have hdelivered : t.delivered = s.delivered := by
        rw [completeFrom_eq hloop]
      have hreports : t.completions.filterMap Completion.report? =
          s.delivered ++ if s.client then done else [] := by
        rw [hnew, List.filterMap_append, filterMap_report? hattached, ← h, hdone]
      unfold Reported deliver
      rw [hclient]
      cases hattached' : s.client with
      | false =>
          rw [hattached', if_neg Bool.false_ne_true, List.append_nil] at hreports
          rw [if_neg Bool.false_ne_true, hdelivered, hreports]
      | true =>
          rw [hattached', if_pos rfl] at hreports
          show t.delivered ++ done = t.completions.filterMap _
          rw [hdelivered, hreports]
  | _ => exact h

end Sequential

/-!
## Runs
-/

/-- What a sequential run without an abandoned slot keeps. -/
structure Accounts (s : DisplayRing) : Prop where
  held : s.Held
  oneOpen : exists current, s.OneOpen current
  reported : s.Reported

theorem accounts_init : init.Accounts where
  held := held_init
  oneOpen := ⟨none, rfl, fun _ => iff_of_false Bool.false_ne_true nofun⟩
  reported := rfl

theorem accounts_run {actions : List RingAct} (hseq : Sequential actions)
    (habandon : forall c, .abandon c ∉ actions) {pre : List RingAct}
    (hpre : pre <+: actions) {t : DisplayRing}
    (h : Transition.run step init pre = some t) : t.Accounts := by
  refine Transition.run_invariant_of_steps step
    (fun t a => (a.isSubmit = true -> t.Quiescent) ∧
      forall c, a ≠ .abandon c) accounts_init ?_ ?_ h
  · intro t a t' hinv hok hstep
    rcases hinv.oneOpen with ⟨current, hopen⟩
    have horder := hopen.inOrder hstep
    exact ⟨step_held hinv.held horder hok.right hstep,
      step_oneOpen hinv.held hopen hok.left hok.right hstep,
      step_reported hinv.held horder hinv.reported hstep⟩
  · intro pre' a t' hpre' ht'
    have hpart := hpre'.trans hpre
    refine ⟨hseq pre' a t' hpart ht', ?_⟩
    rintro c rfl
    exact habandon c (hpart.subset (by simp))

/-- An abandoned slot leaves `head` one ahead of the counted frames. -/
theorem Accounts.not_counted_of_abandon {s s' : DisplayRing} {c : Nat}
    (h : s.Accounts) (hstep : step s (.abandon c) = some s') :
    s'.Quiescent ∧ Not s'.Counted := by
  rcases h.oneOpen with ⟨current, hopen⟩
  cases hcall : s.calls c with
  | dropping slot ret =>
      simp only [step, hcall] at hstep
      cases hstep
      have hcurrent := hopen.eq_some (c := c) (by rw [hcall]; rfl)
      rw [hcurrent] at hopen
      refine ⟨hopen.quiet_of_returned rfl, ?_⟩
      intro hcounted
      have hlength : s.holders.length = s.frames.length + 1 := by
        rw [hopen.left]
        simp
      have hframes : (s.release c ret).inflight = s.frames.length :=
        hcounted.inflight
      have hhead : s.head =
          (s.tail + (s.release c ret).inflight) % displayRingDepth :=
        hcounted.head
      rw [h.held.head, hlength, hframes] at hhead
      simp only [displayRingDepth] at hhead
      omega
  | _ =>
      simp only [step, hcall] at hstep
      cases hstep

theorem Sequential.of_prefix {pre actions : List RingAct}
    (h : Sequential actions) (hpre : pre <+: actions) : Sequential pre :=
  fun before a t hbefore => h before a t (hbefore.trans hpre)

/-- The first abandoned slot breaks the law in the state it leaves. -/
theorem not_lawful_of_abandon {actions : List RingAct} {s : DisplayRing}
    (h : Transition.run step init actions = some s) (hseq : Sequential actions)
    {c : Nat} (hmem : .abandon c ∈ actions) : Not (Lawful actions) := by
  have hfind : (actions.find? RingAct.isAbandon).isSome = true := by
    rw [List.find?_isSome]
    exact ⟨_, hmem, rfl⟩
  rcases Option.isSome_iff_exists.mp hfind with ⟨a, ha⟩
  rcases List.find?_eq_some_iff_append.mp ha with
    ⟨habandon, before, after, rfl, hnone⟩
  rw [Transition.run_append] at h
  rcases Option.bind_eq_some_iff.mp h with ⟨t, ht, hafter⟩
  rw [Transition.run_cons] at hafter
  rcases Option.bind_eq_some_iff.mp hafter with ⟨t', ht', _⟩
  have hclean : forall d, .abandon d ∉ before := by
    intro d hd
    have hfalse := hnone _ hd
    cases hfalse
  have hinv := accounts_run (hseq.of_prefix (List.prefix_append _ _)) hclean
    (List.prefix_refl before) ht
  have hrun : Transition.run step init (before ++ [a]) = some t' := by
    rw [Transition.run_snoc, ht]
    exact ht'
  have hpre : before ++ [a] <+: before ++ a :: after := ⟨after, by simp⟩
  cases a with
  | abandon d =>
      rcases hinv.not_counted_of_abandon ht' with ⟨hquiet, hnot⟩
      intro hlaw
      exact hnot ((hlaw _ t' hpre hrun).left hquiet)
  | _ => cases habandon

/-- In a run of submissions one after the other, the counters describe the
accepted frames in every quiescent state, no slot in flight is written and every
completed frame is reported, just when no submission leaves through the exits
that do not rewind `head`. -/
theorem lawful_run_iff {actions : List RingAct} {s : DisplayRing}
    (h : Transition.run step init actions = some s) (hseq : Sequential actions) :
    Lawful actions <-> forall c, .abandon c ∉ actions := by
  constructor
  · intro hlaw c hmem
    exact not_lawful_of_abandon h hseq hmem hlaw
  · intro habandon pre t hpre ht
    have hinv := accounts_run hseq habandon hpre ht
    rcases hinv.oneOpen with ⟨current, hopen⟩
    exact ⟨hinv.held.counted hopen, hinv.reported,
      fun a _ => hinv.held.separate a⟩

/-- A run of one submission and what becomes of it. -/
theorem sequential_of_single {first : RingAct} {rest : List RingAct}
    (h : forall a, a ∈ rest -> a.isSubmit = false) :
    Sequential (first :: rest) := by
  intro pre a t hpre ht hsubmit
  cases pre with
  | nil =>
      cases ht
      exact fun _ => rfl
  | cons b before =>
      have htail : before ++ [a] <+: rest := (List.cons_prefix_cons.mp hpre).right
      have ha : a ∈ rest := htail.subset (by simp)
      rw [h a ha] at hsubmit
      cases hsubmit

/-- One frame, accepted and completed. -/
private def oneFrame : List RingAct :=
  [.submit 0 (some [1]) 7 true, .fill 0 false 0 false, .asyncIOBundled 0 0 1,
    .complete 0 [0]]

theorem lawful_oneFrame : Lawful oneFrame := by
  have hsome : (Transition.run step init oneFrame).isSome = true := by decide
  rcases Option.isSome_iff_exists.mp hsome with ⟨s, hs⟩
  exact (lawful_run_iff hs (sequential_of_single (by decide))).mpr
    (by simp [oneFrame])

/-- A submission whose slot has no buffer. -/
private def nullBuffer : List RingAct :=
  [.submit 0 (some [1]) 7 true, .fill 0 true 0 false, .abandon 0]

theorem nullBuffer_not_lawful :
    Not (forall actions s, Transition.run step init actions = some s ->
      Sequential actions -> Lawful actions) := by
  intro h
  have hsome : (Transition.run step init nullBuffer).isSome = true := by decide
  rcases Option.isSome_iff_exists.mp hsome with ⟨s, hs⟩
  have hseq : Sequential nullBuffer := sequential_of_single (by decide)
  exact not_lawful_of_abandon hs hseq (c := 0) (by simp [nullBuffer])
    (h nullBuffer s hs hseq)

end DisplayRing

end Dext
end OpenMk3
