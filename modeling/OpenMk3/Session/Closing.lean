import OpenMk3.Session.Correlation

/-!
# A host that is gone

What becomes of the calls once `read_loop` has returned.  The senders live in
`pending`, which the session owns and the loop leaves as it is, so a call whose
entry is still there is never told.
-/

namespace OpenMk3
namespace Session
namespace PluginSession

open Library

variable {β : Type}

/-- Once the loop has returned nothing is pending, and a call without a reply
resumes with "pluginhost closed before replying". -/
def NoneWaits (s : PluginSession β) : Prop :=
  s.reader = .stopped ->
    (forall id, s.pending id = none) ∧
      forall c req, s.calls c = .waiting req -> s.mail c = none ->
        step s (.resume c) = some (s.finish c req (.error .closed))

/-!
## Requests without a reply
-/

/-- A call inserts the sender of its request under the id. -/
def Inserts (id : UInt64) (s : PluginSession β) (a : Action β) : Prop :=
  exists c req, a = .insert c ∧ s.calls c = .allocated req ∧ req.id = id

/-- The loop hands on a reply under the id; a line under id 0 is an event. -/
def HandsOn (id : UInt64) (s : PluginSession β) (a : Action β) : Prop :=
  exists n env, a = .dispatch ∧ s.reader = .holding n env ∧ env.id = id ∧ id ≠ 0

/-- The run has inserted a request under the id and has handed on no reply under
the id since. -/
def Unanswered (id : UInt64) (xs : List (Action β)) : Prop :=
  Transition.Since step spawned (Inserts id) (HandsOn id) xs

/-- The action is that with which the loop returns. -/
def Returns (s : PluginSession β) (a : Action β) : Prop :=
  s.reader = .idle ∧
    (a = .readFails ∨
      a = .read ∧ s.stdout[s.readCount]? = none ∧ s.hostOpen = false)

theorem dispatch_pending_iff (s : PluginSession β) (n : Nat) (env : Envelope β)
    (id : UInt64) :
    (s.dispatch n env).pending id ≠ none <->
      s.pending id ≠ none ∧ ¬ (env.id = id ∧ id ≠ 0) := by
  by_cases hzero : env.id = 0
  · rw [dispatch_event n hzero]
    have hno : ¬ (env.id = id ∧ id ≠ 0) := by
      rintro ⟨rfl, hne⟩
      exact hne hzero
    exact (and_iff_left hno).symm
  · by_cases hid : id = env.id
    · subst hid
      rw [dispatch_pending_self n hzero]
      simp [hzero]
    · rw [dispatch_pending_of_ne n hid]
      have hno : ¬ (env.id = id ∧ id ≠ 0) := fun h => hid h.left.symm
      exact (and_iff_left hno).symm

theorem pending_step {s s' : PluginSession β} {a : Action β} (id : UInt64)
    (hstep : step s a = some s') :
    s'.pending id ≠ none <->
      Inserts id s a ∨ s.pending id ≠ none ∧ ¬ HandsOn id s a := by
  cases performed_of_step hstep with
  | @insert c req hcall =>
      have hno : ¬ HandsOn id s (.insert c) := by
        rintro ⟨n, env, heq, -⟩
        cases heq
      by_cases hid : id = req.id
      · refine iff_of_true ?_ (.inl ⟨c, req, rfl, hcall, hid.symm⟩)
        simp [PluginSession.insert, hid]
      · have hother : ¬ Inserts id s (.insert c) := by
          rintro ⟨c', req', heq, hcall', hid'⟩
          cases heq
          cases hcall.symm.trans hcall'
          exact hid hid'.symm
        simp [PluginSession.insert, hid, hother, hno]
  | @dispatch n env hreader =>
      have hno : ¬ Inserts id s .dispatch := by
        rintro ⟨c, req, heq, -⟩
        cases heq
      have hhands : HandsOn id s .dispatch <-> env.id = id ∧ id ≠ 0 := by
        constructor
        · rintro ⟨m, env', -, hreader', hid⟩
          cases hreader.symm.trans hreader'
          exact hid
        · intro hid
          exact ⟨n, env, rfl, hreader, hid⟩
      rw [dispatch_pending_iff, hhands]
      exact (or_iff_right hno).symm
  | _ =>
      constructor
      · intro h
        refine .inr ⟨h, ?_⟩
        rintro ⟨n, env, heq, -⟩
        cases heq
      · rintro (⟨c, req, heq, -⟩ | ⟨h, -⟩)
        · cases heq
        · exact h

/-- What is pending after a run are the requests it has left without a reply. -/
theorem pending_iff_unanswered {xs : List (Action β)} {s : PluginSession β}
    (h : Transition.run step spawned xs = some s) (id : UInt64) :
    s.pending id ≠ none <-> Unanswered id xs := by
  let Waits : PluginSession β -> Prop := fun t => t.pending id ≠ none
  have hstart : ¬ Waits spawned := fun hne => hne rfl
  have hstep : forall t a t', step t a = some t' ->
      (Waits t' <-> Inserts id t a ∨ Waits t ∧ ¬ HandsOn id t a) :=
    fun t a t' hta => pending_step id hta
  exact Transition.holds_iff_since hstart hstep h

theorem pending_none_iff {xs : List (Action β)} {s : PluginSession β}
    (h : Transition.run step spawned xs = some s) :
    (forall id, s.pending id = none) <-> forall id, ¬ Unanswered id xs := by
  refine forall_congr' fun id => ?_
  rw [← pending_iff_unanswered h id, not_not]

theorem step_of_returns {s : PluginSession β} {a : Action β} (h : s.Returns a) :
    step s a = some s.stop := by
  rcases h with ⟨hreader, rfl | ⟨rfl, hline, hclosed⟩⟩
  · simp [step, hreader]
  · simp [step, hreader, hline, hclosed]

/-!
## Calls after the host
-/

theorem noneWaits_iff {s : PluginSession β} :
    s.NoneWaits <->
      (s.reader = .stopped -> forall id, s.pending id = none) := by
  constructor
  · intro h hstopped
    exact (h hstopped).1
  · intro h hstopped
    have hempty := h hstopped
    refine ⟨hempty, ?_⟩
    intro c req hcall hmail
    simp [step, hcall, awaited, hmail, hempty]

/-- When the loop returns, every request inserted so far has had its reply; behind
that nothing is inserted. -/
def LeavesNone (s : PluginSession β) (pre : List (Action β)) (a : Action β) : Prop :=
  (s.Returns a -> forall id, ¬ Unanswered id pre) ∧
    (s.reader = .stopped -> forall id, ¬ Inserts id s a)

theorem reader_of_step {s s' : PluginSession β} {a : Action β}
    (hstep : step s a = some s') (hstopped : s'.reader = .stopped) :
    s.reader = .stopped ∨ s.Returns a := by
  cases performed_of_step hstep with
  | @readLine line hreader hline => cases line <;> cases hstopped
  | readEnd hreader hline hclosed =>
      exact .inr ⟨hreader, .inr ⟨rfl, hline, hclosed⟩⟩
  | readFails hreader => exact .inr ⟨hreader, .inl rfl⟩
  | dispatch hreader =>
      rw [dispatch_reader] at hstopped
      cases hstopped
  | _ => exact .inl hstopped

/-- What a step has to meet for nothing to be pending behind the loop. -/
theorem LeavesNone.pending_none {xs : List (Action β)} {s s' : PluginSession β}
    {a : Action β} (hleaves : s.LeavesNone xs a)
    (hrun : Transition.run step spawned xs = some s)
    (hbefore : s.reader = .stopped -> forall id, s.pending id = none)
    (hstep : step s a = some s') (hstopped : s'.reader = .stopped) (id : UInt64) :
    s'.pending id = none := by
  have hnone : s.pending id = none ∧ ¬ Inserts id s a := by
    rcases reader_of_step hstep hstopped with hold | hreturns
    · exact ⟨hbefore hold id, hleaves.right hold id⟩
    · refine ⟨(pending_none_iff hrun).mpr (hleaves.left hreturns) id, ?_⟩
      rintro ⟨c, req, rfl, -⟩
      rcases hreturns.right with heq | ⟨heq, -⟩ <;> cases heq
  by_contra hpending
  rcases (pending_step id hstep).mp hpending with hinserts | ⟨hold, -⟩
  · exact hnone.right hinserts
  · exact hold hnone.left

/-- Throughout a run no call waits on a host that is gone, exactly when every request
inserted before the loop returns has had its reply handed on by then, and none is
inserted later. -/
theorem noneWaits_throughout_iff (xs : List (Action β)) :
    (forall pre s, pre <+: xs ->
        Transition.run step spawned pre = some s -> s.NoneWaits) <->
      forall pre a s, pre ++ [a] <+: xs ->
        Transition.run step spawned pre = some s -> s.LeavesNone pre a := by
  constructor
  · intro h pre a s hpre hrun
    have hafter : forall s', step s a = some s' -> s'.reader = .stopped ->
        forall id, s'.pending id = none := by
      intro s' hstep
      apply noneWaits_iff.mp
      apply h (pre ++ [a]) s' hpre
      rw [Transition.run_snoc, hrun]
      exact hstep
    refine ⟨?_, ?_⟩
    · intro hreturns
      exact (pending_none_iff hrun).mp (hafter s.stop (step_of_returns hreturns) rfl)
    · rintro hstopped id ⟨c, req, rfl, hcall, rfl⟩
      have hnone := hafter (s.insert c req) (by simp [step, hcall]) hstopped req.id
      simp [PluginSession.insert] at hnone
  · intro h pre s hpre hrun
    let Inv : List (Action β) -> PluginSession β -> Prop := fun ys t =>
      Transition.run step spawned ys = some t ∧
        (t.reader = .stopped -> forall id, t.pending id = none)
    have hstart : Inv [] spawned := by
      refine ⟨rfl, ?_⟩
      intro hstopped
      cases hstopped
    have hkeep : forall ys t a t', Inv ys t -> step t a = some t' ->
        t.LeavesNone ys a -> Inv (ys ++ [a]) t' := by
      rintro ys t a t' ⟨hys, ht⟩ hstep hleaves
      refine ⟨?_, hleaves.pending_none hys ht hstep⟩
      rw [Transition.run_snoc, hys]
      exact hstep
    have hinv : Inv pre s :=
      Transition.along_invariant (fun ys t a _ => t.LeavesNone ys a) hstart hkeep
        (fun ys a t t' hys ht _ => h ys a t (hys.trans hpre) ht) hrun
    exact noneWaits_iff.mpr hinv.right

/-- The host dies with a request on its pipe. -/
def deadHost : List (Action Unit) :=
  [.start 0 "load" (), .insert 0, .write 0, .hostEnds, .read]

theorem deadHost_strands :
    Not (forall (pre : List (Action Unit)) (s : PluginSession Unit),
      pre <+: deadHost -> Transition.run step spawned pre = some s ->
        s.NoneWaits) := by
  intro h
  have hnone := h deadHost _ (List.prefix_refl deadHost) rfl
  have hempty := (hnone rfl).1 1
  cases hempty

theorem stranded_step {s s' : PluginSession β} {a : Action β} (ho : s.Owned)
    (hstopped : s.reader = .stopped) {c : Nat} {req : Envelope β}
    (hcall : s.calls c = .waiting req) (hmail : s.mail c = none)
    (hstep : step s a = some s') :
    s'.reader = .stopped ∧ s'.calls c = .waiting req ∧ s'.mail c = none := by
  have hother : forall c' st, s.calls c' ≠ .waiting req ->
      Function.update s.calls c' st c = .waiting req := by
    intro c' st hne
    have hc : c ≠ c' := by
      intro heq
      exact hne (heq ▸ hcall)
    rw [Function.update_of_ne hc, hcall]
  cases performed_of_step hstep with
  | start kind body hst | insert hst | write hst | writeFails hst =>
      exact ⟨hstopped, hother _ _ (by simp [hst]), hmail⟩
  | @resume c' req' result hst hresult =>
      rcases ho.awaited hst hresult with ⟨n, env, hsent, _⟩
      have hc : c ≠ c' := by
        intro heq
        rw [<- heq, hmail] at hsent
        cases hsent
      exact ⟨hstopped, (Function.update_of_ne hc _ _).trans hcall, hmail⟩
  | readLine hreader _ | readEnd hreader _ _ | readFails hreader
  | dispatch hreader =>
      rw [hstopped] at hreader
      cases hreader
  | _ =>
      exact ⟨hstopped, hcall, hmail⟩

/-- A call that waits without a reply when the loop has returned waits for as
long as ids last, whatever the other calls do. -/
theorem stranded_forever {xs ys : List (Action β)} {s s' : PluginSession β}
    (hrun : Transition.run step spawned xs = some s)
    (hstopped : s.reader = .stopped) {c : Nat} {req : Envelope β}
    (hcall : s.calls c = .waiting req) (hmail : s.mail c = none)
    (hlater : Transition.run step s ys = some s')
    (hbound : s'.started < 2 ^ 64) : s'.calls c = .waiting req := by
  let Stranded : PluginSession β -> Prop := fun t =>
    t.reader = .stopped ∧ t.calls c = .waiting req ∧ t.mail c = none
  let Inv : PluginSession β -> Prop := fun t =>
    t.started < 2 ^ 64 -> t.Correlated ∧ Stranded t
  have hstart : Inv s := fun hlt =>
    ⟨correlated_of_run hrun hlt, hstopped, hcall, hmail⟩
  have hkeep : forall t a t', Inv t -> True -> step t a = some t' -> Inv t' := by
    intro t a t' ih _ hstep hlt
    have hle := started_le_of_step hstep
    rcases ih (by omega) with ⟨hc, hs⟩
    refine ⟨hc.step hlt hstep, ?_⟩
    exact stranded_step hc.owned hs.1 hs.2.1 hs.2.2 hstep
  have hinv : Inv s' :=
    Transition.run_invariant_of_steps step (fun _ _ => True) hstart hkeep
      (fun _ _ _ _ _ => trivial) hlater
  exact (hinv hbound).2.2.1

end PluginSession
end Session
end OpenMk3
