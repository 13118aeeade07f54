import OpenMk3.Session.Plugin

/-!
# Ids and senders

While fewer than `2 ^ 64` calls have started, ids are not reused, so an entry
of `pending` names its call for good, and a sender is dropped by nobody: it
stays in `pending` until the loop uses it up.
-/

namespace OpenMk3
namespace Session

variable {β : Type}

namespace PluginSession

/-- The ids given out are `1, 2, ..`, each to one call. -/
structure Ids (s : PluginSession β) : Prop where
  next : s.nextId = UInt64.ofNat (s.started + 1)
  range : forall c req, (s.calls c).request = some req ->
    0 < req.id.toNat ∧ req.id.toNat <= s.started
  distinct : forall c c' req req', (s.calls c).request = some req ->
    (s.calls c').request = some req' -> req.id = req'.id -> c = c'

/-- What a call in each state may rely on. -/
def Served (s : PluginSession β) (c : Nat) : CallState β -> Prop
  | .ready => s.mail c = none
  | .allocated _ => s.mail c = none
  | .inserted req => s.mail c = none -> s.pending req.id = some c
  | .waiting req => s.mail c = none -> s.pending req.id = some c
  | .returned _ (.ok env) => exists n, s.mail c = some (n, env)
  | .returned _ (.error .write) => True
  | .returned _ (.error .closed) => False

/-- A sender is in one place: with its call's id in `pending`, or used up. -/
structure Owned (s : PluginSession β) : Prop where
  pending : forall id c, s.pending id = some c ->
    s.mail c = none ∧ exists req, (s.calls c).request = some req ∧ req.id = id
  served : forall c, s.Served c (s.calls c)

/-!
## Frame lemmas
-/

@[simp] theorem request_update (calls : Nat -> CallState β) (c : Nat)
    (st : CallState β) (c' : Nat) :
    (Function.update calls c st c').request =
      if c' = c then st.request else (calls c').request := by
  rw [Function.update_apply]
  by_cases h : c' = c
  · rw [if_pos h, if_pos h]
  · rw [if_neg h, if_neg h]

/-- A step of a call that keeps its request keeps every request. -/
theorem request_update_of_eq {calls : Nat -> CallState β} {c : Nat}
    {st : CallState β} (h : st.request = (calls c).request) (c' : Nat) :
    (Function.update calls c st c').request = (calls c').request := by
  rw [request_update]
  by_cases hc : c' = c
  · rw [if_pos hc, hc, h]
  · rw [if_neg hc]

theorem Ids.frame {s s' : PluginSession β} (h : s.Ids)
    (hnext : s'.nextId = s.nextId) (hstarted : s'.started = s.started)
    (hreq : forall c, (s'.calls c).request = (s.calls c).request) : s'.Ids where
  next := by rw [hnext, hstarted, h.next]
  range := by
    intro c req hc
    rw [hstarted]
    exact h.range c req (hreq c ▸ hc)
  distinct := by
    intro c c' req req' hc hc' hid
    exact h.distinct c c' req req' (hreq c ▸ hc) (hreq c' ▸ hc') hid

/-!
## Ids
-/

theorem started_le_of_step {s s' : PluginSession β} {a : Action β}
    (h : step s a = some s') : s.started <= s'.started := by
  cases performed_of_step h with
  | start kind body hcall =>
      exact Nat.le_succ s.started
  | dispatch hreader =>
      exact Nat.le_of_eq (dispatch_started ..).symm
  | _ =>
      exact Nat.le_refl s.started

theorem Ids.nextId_toNat {s : PluginSession β} (h : s.Ids)
    (hbound : s.started + 1 < 2 ^ 64) : s.nextId.toNat = s.started + 1 := by
  rw [h.next, UInt64.toNat_ofNat', Nat.mod_eq_of_lt hbound]

theorem Ids.allocate {s : PluginSession β} (h : s.Ids) (c : Nat)
    (kind : String) (body : β) (hbound : s.started + 1 < 2 ^ 64) :
    (s.allocate c kind body).Ids where
  next := by
    show s.nextId + 1 = UInt64.ofNat (s.started + 1 + 1)
    rw [h.next, UInt64.ofNat_add (s.started + 1)]
    rfl
  range := by
    have hnew := h.nextId_toNat hbound
    let InRange : Nat -> CallState β -> Prop := fun _ st =>
      forall req, st.request = some req ->
        0 < req.id.toNat ∧ req.id.toNat <= s.started + 1
    refine (Function.forall_update_iff s.calls InRange).mpr ⟨?_, ?_⟩
    · intro req hreq
      cases hreq
      rw [hnew]
      omega
    · intro c' _ req hreq
      have hold := h.range c' req hreq
      omega
  distinct := by
    have hnew := h.nextId_toNat hbound
    have hfresh : forall c' req, (s.calls c').request = some req ->
        req.id ≠ s.nextId := by
      intro c' req hreq hid
      have hold := h.range c' req hreq
      rw [hid] at hold
      omega
    intro c1 c2 req1 req2 h1 h2 hid
    rw [PluginSession.allocate, request_update] at h1 h2
    by_cases heq1 : c1 = c <;> by_cases heq2 : c2 = c
    · rw [heq1, heq2]
    · rw [if_pos heq1] at h1
      rw [if_neg heq2] at h2
      cases h1
      exact absurd hid.symm (hfresh c2 req2 h2)
    · rw [if_neg heq1] at h1
      rw [if_pos heq2] at h2
      cases h2
      exact absurd hid (hfresh c1 req1 h1)
    · rw [if_neg heq1] at h1
      rw [if_neg heq2] at h2
      exact h.distinct c1 c2 req1 req2 h1 h2 hid

/-- Only an allocation changes which requests there are. -/
theorem request_of_step {s s' : PluginSession β} {a : Action β}
    (hstep : step s a = some s') (hstart : forall c kind body, a ≠ .start c kind body)
    (c : Nat) : (s'.calls c).request = (s.calls c).request := by
  cases performed_of_step hstep with
  | start kind body hcall =>
      exact absurd rfl (hstart _ kind body)
  | insert hcall | write hcall | writeFails hcall | resume hcall _ =>
      exact request_update_of_eq (by rw [hcall]; rfl) c
  | dispatch hreader =>
      rw [dispatch_calls]
  | _ =>
      rfl

theorem Ids.step {s s' : PluginSession β} {a : Action β} (h : s.Ids)
    (hbound : s'.started < 2 ^ 64) (hstep : step s a = some s') : s'.Ids := by
  have hreq := request_of_step hstep
  cases performed_of_step hstep with
  | start kind body hcall =>
      exact h.allocate _ kind body hbound
  | dispatch hreader =>
      exact h.frame (dispatch_nextId ..) (dispatch_started ..) (hreq (by simp))
  | _ =>
      exact h.frame rfl rfl (hreq (by simp))

/-!
## Senders
-/

theorem Served.frame {s s' : PluginSession β} {c : Nat} {st : CallState β}
    (h : s.Served c st) (hmail : s'.mail c = s.mail c)
    (hpending : st.receiving = true -> forall req, st.request = some req ->
      s.pending req.id = some c -> s'.pending req.id = some c) :
    s'.Served c st := by
  cases st with
  | ready | allocated req =>
      exact hmail.trans h
  | inserted req | waiting req =>
      intro hnone
      rw [hmail] at hnone
      exact hpending rfl req rfl (h hnone)
  | returned req result =>
      rcases result with (_ | _) | env
      · trivial
      · exact h
      · rcases h with ⟨n, hn⟩
        exact ⟨n, hmail.trans hn⟩

/-- One call moves on; the senders and what was sent stay. -/
theorem Owned.moveCall {s s' : PluginSession β} (h : s.Owned) {c : Nat}
    {st : CallState β} (hcalls : s'.calls = Function.update s.calls c st)
    (hpending : s'.pending = s.pending) (hmail : s'.mail = s.mail)
    (hreq : forall req, (s.calls c).request = some req -> st.request = some req)
    (hserved : s.Served c st) : s'.Owned where
  pending := by
    intro id c' hid
    rcases h.pending id c' (hpending ▸ hid) with ⟨hnone, req, hc', hreqid⟩
    refine ⟨hmail ▸ hnone, req, ?_, hreqid⟩
    rw [hcalls, request_update]
    by_cases heq : c' = c
    · rw [if_pos heq]
      exact hreq req (heq ▸ hc')
    · rw [if_neg heq]
      exact hc'
  served := by
    intro c'
    have hold : s.Served c' (s'.calls c') := by
      rw [hcalls]
      exact (Function.forall_update_iff s.calls s.Served).mpr
        ⟨hserved, fun c'' _ => h.served c''⟩ c'
    apply hold.frame
    · rw [hmail]
    · intro _ req _ hid
      rw [hpending, hid]

theorem Owned.insert {s : PluginSession β} (h : s.Owned) (hi : s.Ids) {c : Nat}
    {req : Envelope β} (hcall : s.calls c = .allocated req) :
    (s.insert c req).Owned where
  pending := by
    have hrequest : forall c',
        ((s.insert c req).calls c').request = (s.calls c').request :=
      request_update_of_eq (by rw [hcall]; rfl)
    intro id c' hid
    rw [hrequest c']
    by_cases heq : id = req.id
    · have hc' : c = c' := by
        simpa [PluginSession.insert, heq] using hid
      subst hc'
      have hnone : s.mail c = none := by
        have hserved := h.served c
        rw [hcall] at hserved
        exact hserved
      exact ⟨hnone, req, by rw [hcall]; rfl, heq.symm⟩
    · apply h.pending id c'
      simpa [PluginSession.insert, heq] using hid
  served := by
    intro c'
    by_cases heq : c' = c
    · subst heq
      simp [PluginSession.insert, Served]
    · have hsame : (s.insert c req).calls c' = s.calls c' :=
        Function.update_of_ne heq _ _
      rw [hsame]
      refine (h.served c').frame rfl ?_
      intro _ req' hreq' hid
      -- No other call has the inserted id.
      have hne : req'.id ≠ req.id := by
        intro hsameId
        exact heq
          (hi.distinct c' c req' req hreq' (by rw [hcall]; rfl) hsameId)
      simpa [PluginSession.insert, hne] using hid

/-- A sender is pending under the id of its call's request. -/
theorem Owned.id_of_pending {s : PluginSession β} (h : s.Owned) {id : UInt64}
    {c : Nat} {req : Envelope β} (hpending : s.pending id = some c)
    (hreq : (s.calls c).request = some req) : req.id = id := by
  rcases (h.pending id c hpending).2 with ⟨req', hreq', hid⟩
  rw [hreq] at hreq'
  cases hreq'
  exact hid

theorem Owned.dispatch {s : PluginSession β} (h : s.Owned) (n : Nat)
    (env : Envelope β) : (s.dispatch n env).Owned := by
  by_cases hid : env.id = 0
  · rw [dispatch_event n hid]
    exact ⟨h.pending, h.served⟩
  constructor
  · intro id c hpending
    have hne : id ≠ env.id := by
      intro heq
      rw [heq, dispatch_pending_self n hid] at hpending
      cases hpending
    rw [dispatch_pending_of_ne n hne] at hpending
    rcases h.pending id c hpending with ⟨hnone, req, hreq, hreqid⟩
    have hother : s.pending env.id ≠ some c := by
      intro howner
      exact hne (hreqid.symm.trans (h.id_of_pending howner hreq))
    rw [dispatch_mail_of_ne n hother, dispatch_calls]
    exact ⟨hnone, req, hreq, hreqid⟩
  · intro c
    rw [dispatch_calls]
    by_cases howner : s.pending env.id = some c
    · cases hrecv : (s.calls c).receiving with
      | true =>
          have hsent := dispatch_mail_of_receiving n hid howner hrecv
          cases hcall : s.calls c <;> rw [hcall] at hrecv <;> cases hrecv
          all_goals
            intro hnone
            rw [hsent] at hnone
            cases hnone
      | false =>
          apply (h.served c).frame
          · rw [dispatch_mail_of_not_receiving n hid howner hrecv]
          · intro hyes
            rw [hrecv] at hyes
            cases hyes
    · apply (h.served c).frame (dispatch_mail_of_ne n howner)
      intro _ req _ hpending
      rw [dispatch_pending_of_ne n ?_, hpending]
      intro heq
      exact howner (heq ▸ hpending)

/-- A sender is not dropped, so the call that resumes has its envelope. -/
theorem Owned.awaited {s : PluginSession β} (h : s.Owned) {c : Nat}
    {req : Envelope β} {result : Except CallError (Envelope β)}
    (hcall : s.calls c = .waiting req) (hresult : s.awaited c req = some result) :
    exists n env, s.mail c = some (n, env) ∧ result = .ok env := by
  have hserved := h.served c
  rw [hcall] at hserved
  rw [PluginSession.awaited] at hresult
  cases hmail : s.mail c with
  | some p =>
      rw [hmail] at hresult
      cases hresult
      exact ⟨p.1, p.2, rfl, rfl⟩
  | none =>
      rw [hmail] at hresult
      simp [hserved hmail] at hresult

theorem Owned.step {s s' : PluginSession β} {a : Action β} (h : s.Owned)
    (hi : s.Ids) (hstep : step s a = some s') : s'.Owned := by
  cases performed_of_step hstep with
  | @start c kind body hcall =>
      refine h.moveCall rfl rfl rfl ?_ ?_
      · intro req hreq
        rw [hcall] at hreq
        cases hreq
      · have hserved := h.served c
        rw [hcall] at hserved
        exact hserved
  | insert hcall =>
      exact h.insert hi hcall
  | @write c req hcall =>
      refine h.moveCall rfl rfl rfl (fun req' hreq' => ?_) ?_
      · rw [hcall] at hreq'
        exact hreq'
      · have hserved := h.served c
        rw [hcall] at hserved
        exact hserved
  | writeFails hcall =>
      refine h.moveCall rfl rfl rfl (fun req' hreq' => ?_) trivial
      rw [hcall] at hreq'
      exact hreq'
  | @resume c req result hcall hresult =>
      refine h.moveCall rfl rfl rfl (fun req' hreq' => ?_) ?_
      · rw [hcall] at hreq'
        exact hreq'
      · rcases h.awaited hcall hresult with ⟨n, env, hmail, rfl⟩
        exact ⟨n, hmail⟩
  | dispatch hreader =>
      exact h.dispatch _ _
  | _ =>
      exact ⟨h.pending, h.served⟩

end PluginSession

end Session
end OpenMk3
