import OpenMk3.Session.Manager

/-!
# Outcomes of loads

How a `load` ends, and where the envelope it returns comes from: it is a line
of the host the load was routed to, with the id of the load's request.
-/

namespace OpenMk3
namespace Session

open Library Nks

variable {β : Type}

/-!
## Answered calls
-/

namespace PluginSession

/-- Every envelope on its way to a call, or returned by one, is a host line
with the id of the call's request. -/
structure Heard (s : PluginSession β) : Prop where
  pending : forall id c, s.pending id = some c ->
    exists req, (s.calls c).request = some req ∧ req.id = id
  held : forall n env, s.reader = .holding n env ->
    s.stdout[n]? = some (.envelope env)
  mail : forall c n env, s.mail c = some (n, env) ->
    s.stdout[n]? = some (.envelope env) ∧ env.id ≠ 0 ∧
      exists req, (s.calls c).request = some req ∧ req.id = env.id
  returned : forall c req env, s.calls c = .returned req (.ok env) ->
    exists n, s.mail c = some (n, env)

theorem heard_spawned : (spawned : PluginSession β).Heard where
  pending := fun _ _ h => nomatch h
  held := fun _ _ h => nomatch h
  mail := fun _ _ _ h => nomatch h
  returned := fun _ _ _ h => nomatch h

section Step

variable {s s' : PluginSession β} {a : Action β}

/-- A call keeps the request it has. -/
theorem request_kept (hstep : step s a = some s') {c : Nat} {req : Envelope β}
    (hreq : (s.calls c).request = some req) :
    (s'.calls c).request = some req := by
  have hsame := request_of_step hstep
  cases performed_of_step hstep with
  | @start c' kind body hcall =>
      have hne : c ≠ c' := by
        rintro rfl
        rw [hcall] at hreq
        cases hreq
      rw [PluginSession.allocate, request_update, if_neg hne]
      exact hreq
  | _ =>
      rw [hsame (by simp)]
      exact hreq

theorem stdout_kept (hstep : step s a = some s') : s.stdout <+: s'.stdout := by
  cases performed_of_step hstep with
  | hostWrites line hopen =>
      exact List.prefix_append ..
  | dispatch hreader =>
      rw [dispatch_stdout]
  | _ =>
      exact List.prefix_rfl

theorem Heard.pending_step (h : s.Heard) (hstep : step s a = some s')
    (id : UInt64) (c : Nat) (hc : s'.pending id = some c) :
    exists req, (s'.calls c).request = some req ∧ req.id = id := by
  have hold : s.pending id = some c ->
      exists req, (s'.calls c).request = some req ∧ req.id = id := by
    intro hpending
    rcases h.pending id c hpending with ⟨req, hreq, hid⟩
    exact ⟨req, request_kept hstep hreq, hid⟩
  cases performed_of_step hstep with
  | @insert c' req hcall =>
      have hinsert : Function.update s.pending req.id (some c') id = some c := hc
      by_cases hid : id = req.id
      · subst hid
        rw [Function.update_self] at hinsert
        cases hinsert
        exact ⟨req, request_kept hstep (by rw [hcall]; rfl), rfl⟩
      · rw [Function.update_of_ne hid] at hinsert
        exact hold hinsert
  | @dispatch n env hreader =>
      by_cases hid : id = env.id
      · subst hid
        by_cases hzero : env.id = 0
        · rw [dispatch_event n hzero] at hc
          exact hold hc
        · rw [dispatch_pending_self n hzero] at hc
          cases hc
      · rw [dispatch_pending_of_ne n hid] at hc
        exact hold hc
  | _ =>
      exact hold hc

theorem Heard.held_step (h : s.Heard) (hstep : step s a = some s') (n : Nat)
    (env : Envelope β) (hheld : s'.reader = .holding n env) :
    s'.stdout[n]? = some (.envelope env) := by
  have hold : s.reader = .holding n env -> s'.stdout[n]? = some (.envelope env) :=
    fun hreader => getElem?_of_prefix (stdout_kept hstep) (h.held n env hreader)
  cases performed_of_step hstep with
  | @readLine line hreader hline =>
      cases line with
      | envelope env' =>
          cases hheld
          exact hline
      | nonJson =>
          cases hheld
  | readEnd _ _ _ | readFails _ =>
      cases hheld
  | dispatch hreader =>
      rw [dispatch_reader] at hheld
      cases hheld
  | _ =>
      exact hold hheld

theorem Heard.mail_step (h : s.Heard) (hstep : step s a = some s') (c n : Nat)
    (env : Envelope β) (hm : s'.mail c = some (n, env)) :
    s'.stdout[n]? = some (.envelope env) ∧ env.id ≠ 0 ∧
      exists req, (s'.calls c).request = some req ∧ req.id = env.id := by
  have hold : s.mail c = some (n, env) ->
      s'.stdout[n]? = some (.envelope env) ∧ env.id ≠ 0 ∧
        exists req, (s'.calls c).request = some req ∧ req.id = env.id := by
    intro hmail
    rcases h.mail c n env hmail with ⟨hline, hzero, req, hreq, hid⟩
    have hkept := getElem?_of_prefix (stdout_kept hstep) hline
    exact ⟨hkept, hzero, req, request_kept hstep hreq, hid⟩
  cases performed_of_step hstep with
  | @dispatch n' env' hreader =>
      rcases dispatch_mail hm with hmail | ⟨hpending, hzero, rfl, rfl⟩
      · exact hold hmail
      · rw [dispatch_calls, dispatch_stdout]
        exact ⟨h.held _ _ hreader, hzero, h.pending _ _ hpending⟩
  | _ =>
      exact hold hm

theorem Heard.returned_step (h : s.Heard) (hstep : step s a = some s') (c : Nat)
    (req : Envelope β) (env : Envelope β)
    (hc : s'.calls c = .returned req (.ok env)) :
    exists n, s'.mail c = some (n, env) := by
  -- A call that moves to another state than this one was not in this one.
  have hupdate : forall c' st, s'.calls = Function.update s.calls c' st ->
      s'.mail = s.mail -> (st = .returned req (.ok env) ->
        exists n, s.mail c' = some (n, env)) ->
      exists n, s'.mail c = some (n, env) := by
    intro c' st hcalls hmail hnew
    rw [hmail]
    rw [hcalls] at hc
    by_cases hcc : c = c'
    · subst hcc
      rw [Function.update_self] at hc
      exact hnew hc
    · rw [Function.update_of_ne hcc] at hc
      exact h.returned c req env hc
  cases performed_of_step hstep with
  | start kind body hcall | insert hcall | write hcall | writeFails hcall =>
      exact hupdate _ _ rfl rfl (by simp)
  | @resume c' req' result hcall hresult =>
      refine hupdate c' _ rfl rfl ?_
      intro heq
      injection heq with _ hok
      subst hok
      unfold PluginSession.awaited at hresult
      cases hmail : s.mail c' with
      | none =>
          by_cases hpending : s.pending req'.id = some c' <;>
            simp [hmail, hpending] at hresult
      | some entry =>
          simp only [hmail, Option.some.injEq, Except.ok.injEq] at hresult
          exact ⟨entry.1, by rw [<- hresult]⟩
  | @dispatch n env' hreader =>
      rw [dispatch_calls] at hc
      rcases h.returned c req env hc with ⟨m, hmail⟩
      refine ⟨m, ?_⟩
      rw [<- hmail]
      by_cases howner : s.pending env'.id = some c
      · by_cases hzero : env'.id = 0
        · rw [dispatch_event n hzero]
        · rw [dispatch_mail_of_not_receiving n hzero howner (by rw [hc]; rfl)]
      · exact dispatch_mail_of_ne n howner
  | _ =>
      exact h.returned c req env hc

theorem Heard.step (h : s.Heard) (hstep : step s a = some s') : s'.Heard where
  pending := h.pending_step hstep
  held := h.held_step hstep
  mail := h.mail_step hstep
  returned := h.returned_step hstep

end Step

theorem heard_of_run {xs : List (Action β)} {s : PluginSession β}
    (hrun : Transition.run step spawned xs = some s) : s.Heard :=
  Transition.run_invariant_of_steps step (fun _ _ => True) heard_spawned
    (fun _ _ _ h _ hstep => h.step hstep) (fun _ _ _ _ _ => trivial) hrun

end PluginSession

/-!
## Ended loads
-/

/-- Why a `load` returns an error. -/
inductive LoadError where
  | spawn
  | call (e : CallError)

/-- The arguments of a load that has started. -/
def LoadState.start? : LoadState -> Option LoadStart
  | ready => none
  | begun start => some start
  | spawnFailed start => some start
  | routed start _ => some start
  | sent start _ => some start

namespace SessionManager

/-- What a load returns, once it does. -/
def outcome (m : SessionManager β) (l : Nat) :
    Option (Except LoadError (Envelope β)) :=
  match m.loads l with
  | .spawnFailed _ => some (.error .spawn)
  | .sent _ i =>
      match m.hosts[i]? with
      | some host =>
          match host.session.calls l with
          | .returned _ (.ok env) => some (.ok env)
          | .returned _ (.error e) => some (.error (.call e))
          | _ => none
      | none => none
  | _ => none

/-- The outcome of load `l`, if it is a load of these arguments. -/
def outcomeFor (m : SessionManager β) (l : Nat) (bundle : Path)
    (stateBase64 : String) : Option (Except LoadError (Envelope β)) :=
  match (m.loads l).start? with
  | some start =>
      if start.bundle = bundle ∧ start.stateBase64 = stateBase64 then m.outcome l
      else none
  | none => none

theorem outcome_of_outcomeFor {m : SessionManager β} {l : Nat} {bundle : Path}
    {stateBase64 : String} {result : Except LoadError (Envelope β)}
    (h : m.outcomeFor l bundle stateBase64 = some result) :
    m.outcome l = some result := by
  unfold outcomeFor at h
  cases hstart : (m.loads l).start? with
  | none =>
      rw [hstart] at h
      cases h
  | some start =>
      rw [hstart] at h
      by_cases hargs : start.bundle = bundle ∧ start.stateBase64 = stateBase64
      · simpa only [if_pos hargs] using h
      · simp [if_neg hargs] at h

/-- A reply of the host that the load was sent to, with the id of its request:
the line that was handed to the call. -/
def HostAnswers (m : SessionManager β) (l : Nat) (env : Envelope β) : Prop :=
  exists start i host req n,
    m.loads l = .sent start i ∧ m.hosts[i]? = some host ∧
    (host.session.calls l).request = some req ∧ req.id = env.id ∧
    env.id ≠ 0 ∧ host.session.mail l = some (n, env) ∧
    host.session.stdout[n]? = some (.envelope env)

theorem hostAnswers_of_outcome {loadBody : Path -> String -> β}
    {xs : List (ManagerAction β)} {m : SessionManager β}
    (hrun : Transition.run (step loadBody) new xs = some m) {l : Nat}
    {env : Envelope β} (h : m.outcome l = some (.ok env)) :
    m.HostAnswers l env := by
  cases hload : m.loads l with
  | sent start i =>
      simp only [outcome, hload] at h
      cases hhost : m.hosts[i]? with
      | none =>
          simp [hhost] at h
      | some host =>
          rcases hosted_of_run hrun i host hhost with ⟨ys, hys⟩
          have hheard := PluginSession.heard_of_run hys
          simp only [hhost] at h
          cases hcall : host.session.calls l with
          | returned req result =>
              cases result with
              | error e =>
                  simp [hcall] at h
              | ok env' =>
                  simp only [hcall, Option.some.injEq, Except.ok.injEq] at h
                  subst h
                  rcases hheard.returned l req env' hcall with ⟨n, hmail⟩
                  rcases hheard.mail l n env' hmail with
                    ⟨hline, hzero, req', hreq, hid⟩
                  exact ⟨start, i, host, req', n, hload, hhost, hreq, hid, hzero,
                    hmail, hline⟩
          | _ =>
              simp [hcall] at h
  | _ =>
      simp [outcome, hload] at h

/-- The request that a load has sent to its host. -/
def RequestOf (m : SessionManager β) (l : Nat) (req : Envelope β) : Prop :=
  exists start i host, m.loads l = .sent start i ∧ m.hosts[i]? = some host ∧
    (host.session.calls l).request = some req

/-- Host `j` has the request of load `l`. -/
def HasRequest (m : SessionManager β) (j l : Nat) (body : β) : Prop :=
  exists host req, m.hosts[j]? = some host ∧
    (host.session.calls l).request = some req ∧
    req = { id := req.id, kind := "load", body := body }

/-- Every load that has been sent has its request in the session of its host. -/
def Requested (loadBody : Path -> String -> β) (m : SessionManager β) : Prop :=
  forall l start i, m.loads l = .sent start i ->
    m.HasRequest i l (loadBody start.bundle start.stateBase64)

section Requested

variable {loadBody : Path -> String -> β} {m m' : SessionManager β}

theorem HasRequest.spawn {j l : Nat} {body : β} (h : m.HasRequest j l body)
    (bundle : Path) : (m.spawn bundle).HasRequest j l body := by
  rcases h with ⟨host, req, hhost, hreq, hload⟩
  have hkept : (m.spawn bundle).hosts[j]? = some host :=
    getElem?_of_prefix (List.prefix_append ..) hhost
  exact ⟨host, req, hkept, hreq, hload⟩

theorem HasRequest.stepHost {i j l : Nat} {body : β} {a : Action β}
    (h : m.HasRequest j l body) (hstep : m.stepHost i a = some m') :
    m'.HasRequest j l body := by
  rcases h with ⟨host, req, hhost, hreq, hload⟩
  rcases stepHost_eq_some hstep with ⟨host', session, hhost', hsession, rfl⟩
  by_cases hij : i = j
  · subst hij
    rw [hhost] at hhost'
    cases hhost'
    refine ⟨{ host with session := session }, req, ?_,
      PluginSession.request_kept hsession hreq, hload⟩
    exact List.getElem?_set_self (List.getElem?_eq_some_iff.mp hhost).1
  · exact ⟨host, req, by rw [List.getElem?_set_ne hij]; exact hhost, hreq, hload⟩

theorem hasRequest_of_send {i l : Nat} {body : β}
    (hstep : m.stepHost i (.start l "load" body) = some m') :
    m'.HasRequest i l body := by
  rcases stepHost_eq_some hstep with ⟨host, session, hhost, hsession, rfl⟩
  refine ⟨{ host with session := session },
    { id := host.session.nextId, kind := "load", body := body }, ?_, ?_, rfl⟩
  · exact List.getElem?_set_self (List.getElem?_eq_some_iff.mp hhost).1
  · cases PluginSession.performed_of_step hsession with
    | start kind body hcall =>
        show (Function.update host.session.calls l _ l).request = _
        rw [Function.update_self]
        rfl

theorem Requested.step {a : ManagerAction β} (h : m.Requested loadBody)
    (hstep : SessionManager.step loadBody m a = some m') :
    m'.Requested loadBody := by
  -- The load that moves is not sent, unless the step is its `send`.
  have hother : forall l st (m'' : SessionManager β),
      m''.loads = Function.update m.loads l st ->
      (forall start i, st = .sent start i ->
        m''.HasRequest i l (loadBody start.bundle start.stateBase64)) ->
      (forall i k body, m.HasRequest i k body -> m''.HasRequest i k body) ->
      m''.Requested loadBody := by
    intro l st m'' hloads hst hkeep k start i hk
    rw [hloads] at hk
    by_cases hkl : k = l
    · subst hkl
      rw [Function.update_self] at hk
      exact hst start i hk
    · rw [Function.update_of_ne hkl] at hk
      exact hkeep i k _ (h k start i hk)
  cases performed_of_step hstep with
  | @start l bundle stateBase64 hload =>
      exact hother l _ _ rfl (by simp) (fun _ _ _ hr => hr)
  | @route l start hload =>
      rw [SessionManager.route]
      cases m.byBundle start.bundle with
      | some i =>
          exact hother l _ _ rfl (by simp) (fun _ _ _ hr => hr)
      | none =>
          exact hother l _ _ rfl (by simp)
            (fun _ _ _ hr => hr.spawn start.bundle)
  | @spawnFails l start hload hentry =>
      exact hother l _ _ rfl (by simp) (fun _ _ _ hr => hr)
  | @send l i start m'' hload hhost =>
      refine hother l (.sent start i) (m''.setLoad l (.sent start i)) ?_ ?_ ?_
      · show Function.update m''.loads l _ = _
        rw [(stepHost_eq hhost).2.2]
      · intro start' i' hst
        cases hst
        have hsent := hasRequest_of_send hhost
        exact hsent
      · intro j k body hr
        have hkept := hr.stepHost hhost
        exact hkept
  | inSession hhost =>
      intro k start i hk
      rw [(stepHost_eq hhost).2.2] at hk
      exact HasRequest.stepHost (h k start i hk) hhost

theorem requested_of_run {xs : List (ManagerAction β)}
    (hrun : Transition.run (SessionManager.step loadBody) new xs = some m) :
    m.Requested loadBody :=
  Transition.run_invariant_of_steps (SessionManager.step loadBody)
    (fun _ _ => True) (fun _ _ _ h => nomatch h)
    (fun _ _ _ h _ hstep => h.step hstep) (fun _ _ _ _ _ => trivial) hrun

/-- The request of a load is a `load` message with the body for its arguments. -/
theorem RequestOf.eq_load {xs : List (ManagerAction β)} {l : Nat} {req : Envelope β}
    (h : m.RequestOf l req)
    (hrun : Transition.run (SessionManager.step loadBody) new xs = some m) :
    exists bundle stateBase64,
      req = { id := req.id, kind := "load", body := loadBody bundle stateBase64 } := by
  rcases h with ⟨start, i, host, hload, hhost, hreq⟩
  rcases requested_of_run hrun l start i hload with ⟨host', req', hhost', hreq', heq⟩
  rw [hhost] at hhost'
  cases hhost'
  rw [hreq] at hreq'
  cases hreq'
  exact ⟨start.bundle, start.stateBase64, heq⟩

end Requested

/-- At most one line answers a load. -/
theorem HostAnswers.unique {m : SessionManager β} {l : Nat} {env env' : Envelope β}
    (h : m.HostAnswers l env) (h' : m.HostAnswers l env') : env = env' := by
  rcases h with ⟨start, i, host, req, n, hload, hhost, _, _, _, hmail, _⟩
  rcases h' with ⟨start', i', host', req', n', hload', hhost', _, _, _, hmail', _⟩
  rw [hload] at hload'
  cases hload'
  rw [hhost] at hhost'
  cases hhost'
  rw [hmail] at hmail'
  cases hmail'
  rfl

end SessionManager

end Session
end OpenMk3
