import OpenMk3.Host.Dialogue
import OpenMk3.Session.Outcome

/-!
# A session with its host

The plugin session of the daemon and the loop of `main` at the two ends of their
pipes.  Calls start at any time, the host takes a request when it is through with
the last one and writes its envelopes one by one, and the read loop takes them off
as `stdout_answers_stdin` says it can.  Its events go to the channel that all
sessions share and that the pump of `main` empties; while the channel is full the
loop waits.  No call is left without its reply while the host runs.
-/

namespace OpenMk3
namespace Host

open Library Session

/-- What the session manager calls a session for; it never sends a shutdown. -/
inductive Verb where
  | load (bundle stateBase64 : String)
  | midi (status data1 data2 : UInt8)

namespace Verb

def request : Verb -> UInt64 -> Request
  | load bundle stateBase64, id => .load id bundle stateBase64
  | midi status data1 data2, id => .midi id status data1 data2

def envelope (v : Verb) (id : UInt64) : Envelope Json :=
  (v.request id).envelope

/-- The kind of the reply. -/
def replyKind : Verb -> String
  | load _ _ => "load_result"
  | midi _ _ _ => "ok"

@[simp] theorem envelope_id (v : Verb) (id : UInt64) : (v.envelope id).id = id := by
  cases v <;> rfl

/-- A call makes its request from the kind and the body alone. -/
theorem envelope_eq (v : Verb) (id : UInt64) :
    v.envelope id =
      { id := id, kind := (v.envelope 0).kind, body := (v.envelope 0).body } := by
  cases v <;> rfl

/-- The request determines the kind of its reply. -/
theorem replyKind_eq {v v' : Verb} {id id' : UInt64}
    (h : v.envelope id = v'.envelope id') : v.replyKind = v'.replyKind := by
  have hkind : (v.envelope id).kind = (v'.envelope id').kind :=
    congrArg Envelope.kind h
  cases v <;> cases v'
  · rfl
  · exact absurd hkind (by decide : "load" ≠ "midi")
  · exact absurd hkind (by decide : "midi" ≠ "load")
  · rfl

end Verb

/-- The capacity of the channel that `SessionManager::new` makes. -/
def eventCapacity : Nat := 128

/-- The two ends.  `outbox` holds the envelopes that the current iteration of the
host's loop has yet to write, and `looping` tells whether another follows.
`queued` events of this session and of others are in the channel. -/
structure Coupled (ι : Type) where
  session : PluginSession Json
  host : HostSession ι
  outbox : List (Envelope Json)
  looping : Bool
  queued : Nat

inductive CoupledAct where
  | start (c : Nat) (v : Verb)
  | session (a : Action Json)
  | iterate
  | reply
  -- `plugin_events.recv()` in `main`
  | recvEvent
  -- `events_tx.send` in the read loop of another session
  | othersSend

/-- The actions of the daemon's tasks on a call that has started, and the end of
the host. -/
def ofTasks : Action Json -> Bool
  | .start .. | .hostReceives | .hostWrites _ => false
  | _ => true

namespace Coupled

variable {ι : Type} (juce : Juce ι)

def spawned (host : HostSession ι) : Coupled ι where
  session := PluginSession.spawned
  host := host
  outbox := []
  looping := true
  queued := 0

/-- How many events an action of the session sends. -/
def sends (s : Coupled ι) : Action Json -> Nat
  | .dispatch =>
      match s.session.reader with
      | .holding _ env => if env.id = 0 then 1 else 0
      | _ => 0
  | _ => 0

/-- A step of the session alone; one that sends an event waits for room. -/
def onSession (s : Coupled ι) (a : Action Json) : Option (Coupled ι) :=
  if s.sends a = 0 || s.queued < eventCapacity then
    (PluginSession.step s.session a).map fun session =>
      { s with session := session, queued := s.queued + s.sends a }
  else none

/-- The host has taken a request and made its answer. -/
def answering (s : Coupled ι) (req : Envelope Json) (rest : List (Envelope Json))
    (answer : HostSession ι × Bool × List (Envelope Json)) : Coupled ι where
  session := s.session.hostReceive req rest
  host := answer.1
  outbox := answer.2.2
  looping := answer.2.1
  queued := s.queued

/-- The host reads the next line of its stdin. -/
def iterate (s : Coupled ι) : Option (Coupled ι) :=
  match s.outbox, s.session.stdin with
  | [], req :: rest =>
      if s.session.hostOpen && s.looping then
        some (s.answering req rest (s.host.handle juce (readMessage req.line).1))
      else none
  | _, _ => none

/-- The host writes the next line. -/
def reply (s : Coupled ι) : Option (Coupled ι) :=
  match s.outbox with
  | env :: rest =>
      if s.session.hostOpen then
        some { s with session := s.session.hostWrite (.envelope env), outbox := rest }
      else none
  | [] => none

/-- The pump takes an event and logs it. -/
def recvEvent (s : Coupled ι) : Option (Coupled ι) :=
  if 0 < s.queued then some { s with queued := s.queued - 1 } else none

def othersSend (s : Coupled ι) : Option (Coupled ι) :=
  if s.queued < eventCapacity then some { s with queued := s.queued + 1 } else none

def step : Transition (Coupled ι) CoupledAct
  | s, .start c v =>
      s.onSession (.start c (v.envelope 0).kind (v.envelope 0).body)
  | s, .session a => if ofTasks a then s.onSession a else none
  | s, .iterate => s.iterate juce
  | s, .reply => s.reply
  | s, .recvEvent => s.recvEvent
  | s, .othersSend => s.othersSend

theorem onSession_eq_some {s s' : Coupled ι} {a : Action Json}
    (h : s.onSession a = some s') :
    exists session, PluginSession.step s.session a = some session ∧
      s' = { s with session := session, queued := s.queued + s.sends a } := by
  unfold onSession at h
  split at h
  · rcases Option.map_eq_some_iff.mp h with ⟨session, hsession, rfl⟩
    exact ⟨session, hsession, rfl⟩
  · cases h

/-- The events of other sessions, and those that the pump takes, change how many are
queued. -/
theorem queued_of_step {s s' : Coupled ι}
    (h : s.recvEvent = some s' ∨ s.othersSend = some s') :
    exists queued, s' = { s with queued := queued } := by
  rcases h with hrecv | hsend
  · cases (Option.ite_none_right_eq_some.mp hrecv).right
    exact ⟨_, rfl⟩
  · cases (Option.ite_none_right_eq_some.mp hsend).right
    exact ⟨_, rfl⟩

variable {juce} in
theorem iterate_eq_some {s s' : Coupled ι} (h : s.iterate juce = some s') :
    exists req rest, s.outbox = [] ∧ s.session.stdin = req :: rest ∧
      s' = s.answering req rest (s.host.handle juce (readMessage req.line).1) := by
  unfold Coupled.iterate at h
  split at h
  · next req rest houtbox hline =>
      cases (Option.ite_none_right_eq_some.mp h).right
      exact ⟨req, rest, houtbox, hline, rfl⟩
  · cases h

theorem reply_eq_some {s s' : Coupled ι} (h : s.reply = some s') :
    exists env rest, s.outbox = env :: rest ∧ s.session.hostOpen = true ∧
      s' = { s with
        session := s.session.hostWrite (.envelope env)
        outbox := rest } := by
  unfold Coupled.reply at h
  split at h
  · next env rest houtbox =>
      rcases Option.ite_none_right_eq_some.mp h with ⟨hopen, heq⟩
      cases heq
      exact ⟨env, rest, houtbox, hopen, rfl⟩
  · cases h

/-!
## The envelopes of an iteration
-/

/-- An event, or the reply to a request of the verb under the id. -/
def Fits (v : Verb) (id : UInt64) (env : Envelope Json) : Prop :=
  isReply env = false ∧ env.id = 0 ∨
    isReply env = true ∧ env.id = id ∧ env.kind = v.replyKind

variable {juce}

theorem readMessage_envelope (v : Verb) (id : UInt64) :
    (readMessage (v.envelope id).line).1 = (v.request id).message := by
  have hread := (v.request id).readMessage_line []
  rw [List.append_nil] at hread
  exact congrArg Prod.fst hread

theorem isShutdown_request (v : Verb) (id : UInt64) :
    (v.request id).isShutdown = false := by
  cases v <;> rfl

theorem fits_loadEvents (s : HostSession ι) (bundle state : List UInt8) (v : Verb)
    (id : UInt64) :
    forall env, env ∈ (s.load juce bundle state).2.1 -> Fits v id env := by
  unfold HostSession.load
  cases juce.scanAndAddDragAndDroppedFiles bundle with
  | nil => exact nofun
  | cons d rest =>
      cases hcreated : juce.createPluginInstance d with
      | error e =>
          simp only [hcreated]
          exact nofun
      | ok created =>
          simp only [hcreated]
          intro env henv
          rw [List.mem_singleton.mp henv]
          exact .inl ⟨rfl, rfl⟩

variable (juce) in
/-- The host goes on after a request, and answers it once. -/
theorem handle_verb (s : HostSession ι) (v : Verb) (id : UInt64) :
    (s.handle juce (v.request id).message).2.1 = true ∧
    ((s.handle juce (v.request id).message).2.2.filter isReply).map Envelope.id =
      [id] ∧
    forall env, env ∈ (s.handle juce (v.request id).message).2.2 ->
      Fits v id env := by
  have hgoes := (handle_request juce s (isShutdown_request v id)).left
  refine ⟨hgoes, ?_, ?_⟩
  · rw [ids_handle, if_neg (kind_ne_nil_of_goesOn juce hgoes)]
    cases v <;> rfl
  · cases v with
    | load bundle stateBase64 =>
        intro env henv
        rcases List.mem_append.mp henv with hevent | hreply
        · exact fits_loadEvents s _ _ _ id env hevent
        · rw [List.mem_singleton.mp hreply]
          exact .inr ⟨rfl, rfl, rfl⟩
    | midi status data1 data2 =>
        intro env henv
        rw [List.mem_singleton.mp henv]
        exact .inr ⟨rfl, rfl, rfl⟩

variable (juce) in
theorem length_handle (s : HostSession ι) (v : Verb) (id : UInt64) :
    (s.handle juce (v.request id).message).2.2.length ≤ 2 := by
  cases v with
  | load bundle stateBase64 =>
      have hevents : forall bundle state, (s.load juce bundle state).2.1.length ≤ 1 := by
        intro bundle state
        unfold HostSession.load
        cases juce.scanAndAddDragAndDroppedFiles bundle with
        | nil => exact Nat.zero_le 1
        | cons d rest =>
            cases hcreated : juce.createPluginInstance d <;> simp only [hcreated]
            · exact Nat.zero_le 1
            · exact Nat.le_refl 1
      show (_ ++ [_]).length ≤ 2
      rw [List.length_append]
      exact Nat.add_le_add_right (hevents _ _) 1
  | midi status data1 data2 => exact Nat.le_succ 1

/-!
## What the daemon's tasks leave alone
-/

section Session

variable {t t' : PluginSession Json} {a : Action Json}

theorem frame_of_tasks (ha : ofTasks a = true)
    (h : PluginSession.step t a = some t') :
    t'.stdout = t.stdout ∧ t'.received = t.received := by
  cases PluginSession.performed_of_step h with
  | start | hostReceives | hostWrites => cases ha
  | dispatch hreader =>
      exact ⟨PluginSession.dispatch_stdout .., PluginSession.dispatch_received ..⟩
  | _ => exact ⟨rfl, rfl⟩

/-- A request on stdin was there before, or a call has just written it. -/
theorem stdin_of_tasks (ha : ofTasks a = true)
    (h : PluginSession.step t a = some t') :
    t.stdin <+: t'.stdin ∧ forall req, req ∈ t'.stdin -> req ∈ t.stdin ∨
      exists c, (t'.calls c).request = some req := by
  cases PluginSession.performed_of_step h with
  | start | hostReceives | hostWrites => cases ha
  | @write c req hcall =>
      refine ⟨List.prefix_append _ _, ?_⟩
      intro req' hreq'
      rcases List.mem_append.mp hreq' with hold | hnew
      · exact .inl hold
      · rw [List.mem_singleton.mp hnew]
        refine .inr ⟨c, ?_⟩
        simp [PluginSession.write, CallState.request]
  | dispatch hreader =>
      rw [PluginSession.dispatch_stdin]
      exact ⟨List.prefix_rfl, fun _ => .inl⟩
  | _ => exact ⟨List.prefix_rfl, fun _ => .inl⟩

/-- A call that waits has waited before, or has just written its request. -/
theorem waiting_of_step (h : PluginSession.step t a = some t') {c : Nat}
    {req : Envelope Json} (hcall : t'.calls c = .waiting req) :
    t.calls c = .waiting req ∨ req ∈ t'.stdin := by
  have hother : forall (c' : Nat) (st : CallState Json),
      (forall r, st ≠ .waiting r) ->
      Function.update t.calls c' st c = .waiting req -> t.calls c = .waiting req := by
    intro c' st hst hupdate
    rw [Function.update_apply] at hupdate
    split at hupdate
    · exact absurd hupdate (hst req)
    · exact hupdate
  cases PluginSession.performed_of_step h with
  | start | insert | writeFails | resume =>
      refine .inl (hother _ _ ?_ hcall)
      intro r h
      cases h
  | @write c' req' hinserted =>
      by_cases hc : c = c'
      · rw [hc] at hcall
        have hupdate : Function.update t.calls c' (.waiting req') c' =
          .waiting req := hcall
        rw [Function.update_self] at hupdate
        cases hupdate
        exact .inr (List.mem_append_right _ (List.mem_singleton.mpr rfl))
      · have hupdate : Function.update t.calls c' (.waiting req') c =
          .waiting req := hcall
        rw [Function.update_of_ne hc] at hupdate
        exact .inl hupdate
  | dispatch hreader =>
      rw [PluginSession.dispatch_calls] at hcall
      exact .inl hcall
  | _ => exact .inl hcall

/-- The request of a call is as before, or the one that the call has started
with. -/
theorem request_of_start (h : PluginSession.step t a = some t') {c : Nat}
    {req : Envelope Json} (hreq : (t'.calls c).request = some req) :
    (t.calls c).request = some req ∨
      exists kind body, a = .start c kind body ∧
        req = { id := t.nextId, kind := kind, body := body } := by
  have hsame := PluginSession.request_of_step h
  cases PluginSession.performed_of_step h with
  | @start c' kind body hcall =>
      rw [PluginSession.allocate, PluginSession.request_update] at hreq
      split at hreq
      · next hc =>
          cases hreq
          exact .inr ⟨kind, body, hc ▸ rfl, rfl⟩
      · exact .inl hreq
  | _ => exact .inl (hsame (by simp) c ▸ hreq)

end Session

/-!
## Requests and replies
-/

def lineEnvelope? : Line Json -> Option (Envelope Json)
  | .envelope env => some env
  | .nonJson => none

/-- What the host has written, and what it is about to write. -/
def said (s : Coupled ι) : List (Envelope Json) :=
  s.session.stdout.filterMap lineEnvelope? ++ s.outbox

/-- The envelope belongs to the request of a call. -/
def Due (t : PluginSession Json) (env : Envelope Json) : Prop :=
  exists c v id, (t.calls c).request = some (v.envelope id) ∧ Fits v id env

/-- The ids are far from running out. -/
def lastId : Nat := 2 ^ 64 - 1

theorem le_lastId {n : Nat} (h : n < 2 ^ 64) : n ≤ lastId := by
  unfold lastId
  omega

/-- Every request is on its way, received or answered; the replies are those of the
requests received, in order. -/
structure Matched (s : Coupled ι) : Prop where
  looping : s.looping = true
  correlated : s.session.Correlated
  answered : s.session.Answered lastId
  verbs : forall c req, (s.session.calls c).request = some req ->
    exists v : Verb, req = v.envelope req.id
  stdin : forall req, req ∈ s.session.stdin ->
    exists c, (s.session.calls c).request = some req
  sent : forall c req, s.session.calls c = .waiting req ->
    req ∈ s.session.stdin ∨ req.id ∈ s.session.received
  replies : (s.said.filter isReply).map Envelope.id = s.session.received
  due : forall env, env ∈ s.said -> Due s.session env

theorem matched_spawned (host : HostSession ι) : (spawned host).Matched where
  looping := rfl
  correlated := PluginSession.correlated_spawned
  answered := PluginSession.answered_spawned lastId
  verbs := nofun
  stdin := nofun
  sent := nofun
  replies := rfl
  due := nofun

section Step

variable {s s' : Coupled ι}

theorem Due.step {t t' : PluginSession Json} {a : Action Json}
    {env : Envelope Json} (h : Due t env)
    (hstep : PluginSession.step t a = some t') : Due t' env := by
  rcases h with ⟨c, v, id, hreq, hfits⟩
  exact ⟨c, v, id, PluginSession.request_kept hstep hreq, hfits⟩

/-- A step of the session that writes no line and receives none. -/
theorem Matched.onSession (h : s.Matched) {a : Action Json}
    {session : PluginSession Json}
    (hstep : PluginSession.step s.session a = some session)
    (hbound : session.started < 2 ^ 64) (hans : s.session.Answers lastId a)
    (hframe : session.stdout = s.session.stdout ∧
      session.received = s.session.received)
    (hstdin : s.session.stdin <+: session.stdin ∧
      forall req, req ∈ session.stdin -> req ∈ s.session.stdin ∨
        exists c, (session.calls c).request = some req)
    (hverb : forall c kind body, a = .start c kind body ->
      exists v : Verb, kind = (v.envelope 0).kind ∧ body = (v.envelope 0).body)
    (queued : Nat) :
    Matched { s with session := session, queued := queued } where
  looping := h.looping
  correlated := h.correlated.step hbound hstep
  answered := h.answered.step h.correlated (by decide)
    (le_lastId hbound) hans hstep
  verbs c req hreq := by
    rcases request_of_start hstep hreq with hold | ⟨kind, body, hstart, rfl⟩
    · exact h.verbs c req hold
    · rcases hverb c kind body hstart with ⟨v, rfl, rfl⟩
      exact ⟨v, (v.envelope_eq _).symm⟩
  stdin req hreq := by
    rcases hstdin.right req hreq with hold | hnew
    · rcases h.stdin req hold with ⟨c, hc⟩
      exact ⟨c, PluginSession.request_kept hstep hc⟩
    · exact hnew
  sent c req hcall := by
    rcases waiting_of_step hstep hcall with hold | hnew
    · rcases h.sent c req hold with hon | hreceived
      · exact .inl (hstdin.left.subset hon)
      · exact .inr (hframe.right ▸ hreceived)
    · exact .inl hnew
  replies := by
    show ((session.stdout.filterMap lineEnvelope? ++ s.outbox).filter
      isReply).map Envelope.id = session.received
    rw [hframe.left, hframe.right]
    exact h.replies
  due env henv := by
    have hsaid : env ∈ s.said := by
      change env ∈ session.stdout.filterMap lineEnvelope? ++ s.outbox at henv
      rw [hframe.left] at henv
      exact henv
    exact (h.due env hsaid).step hstep

/-- How many events are queued is of no account. -/
theorem Matched.queued (h : s.Matched) (queued : Nat) :
    Matched { s with queued := queued } :=
  ⟨h.looping, h.correlated, h.answered, h.verbs, h.stdin, h.sent, h.replies, h.due⟩

/-- The host reads the next request on its stdin as what a call has asked for. -/
theorem Matched.next (h : s.Matched) {req : Envelope Json}
    {rest : List (Envelope Json)} (hline : s.session.stdin = req :: rest) :
    exists (c : Nat) (v : Verb),
      (s.session.calls c).request = some (v.envelope req.id) ∧
        (readMessage req.line).1 = (v.request req.id).message := by
  rcases h.stdin req (hline ▸ List.mem_cons_self) with ⟨c, hc⟩
  rcases h.verbs c req hc with ⟨v, hv⟩
  refine ⟨c, v, hv ▸ hc, ?_⟩
  rw [hv, readMessage_envelope, Verb.envelope_id]

theorem Matched.iterate (h : s.Matched) (hbound : s.session.started < 2 ^ 64)
    (hstep : s.iterate juce = some s') : s'.Matched := by
  rcases iterate_eq_some hstep with ⟨req, rest, houtbox, hline, rfl⟩
  rcases h.next hline with ⟨c, v, hc, hread⟩
  rcases handle_verb juce s.host v req.id with ⟨hgoes, hids, hfits⟩
  have hsession : PluginSession.step s.session .hostReceives =
      some (s.session.hostReceive req rest) := by
    simp only [PluginSession.step, hline]
  have hreplies := h.replies
  unfold said at hreplies
  rw [houtbox, List.append_nil] at hreplies
  rw [hread]
  refine
    { looping := hgoes
      correlated := h.correlated.step hbound hsession
      answered := h.answered.step h.correlated (by decide)
        (le_lastId hbound) (by trivial) hsession
      verbs := h.verbs
      stdin := ?_
      sent := ?_
      replies := ?_
      due := ?_ }
  · intro req' hreq'
    exact h.stdin req' (hline ▸ List.mem_cons_of_mem req hreq')
  · intro c' req' hcall
    rcases h.sent c' req' hcall with hon | hreceived
    · rw [hline] at hon
      rcases List.mem_cons.mp hon with rfl | hrest
      · exact .inr (List.mem_append_right _ (List.mem_singleton.mpr rfl))
      · exact .inl hrest
    · exact .inr (List.mem_append_left _ hreceived)
  · show ((s.session.stdout.filterMap lineEnvelope? ++
        (s.host.handle juce (v.request req.id).message).2.2).filter
      isReply).map Envelope.id = s.session.received ++ [req.id]
    rw [List.filter_append, List.map_append, hids]
    exact congrArg (· ++ [req.id]) hreplies
  · intro env henv
    rcases List.mem_append.mp henv with hold | hnew
    · exact (h.due env (List.mem_append_left _ hold)).step hsession
    · exact ⟨c, v, req.id, hc, hfits env hnew⟩

theorem Matched.reply (h : s.Matched) (hbound : s.session.started < 2 ^ 64)
    (hstep : s.reply = some s') : s'.Matched := by
  rcases reply_eq_some hstep with ⟨env, rest, houtbox, hopen, rfl⟩
  have hsession : PluginSession.step s.session (.hostWrites (.envelope env)) =
      some (s.session.hostWrite (.envelope env)) := if_pos hopen
  have hdue := h.due
  have hreplies := h.replies
  have hsaid : s.said =
      (s.session.hostWrite (.envelope env)).stdout.filterMap
        lineEnvelope? ++ rest := by
    unfold said PluginSession.hostWrite
    rw [houtbox, List.filterMap_append, List.append_assoc]
    rfl
  have hans : s.session.Answers lastId (.hostWrites (.envelope env)) := by
    have hmem : env ∈ s.said := by
      unfold said
      rw [houtbox]
      exact List.mem_append_right _ List.mem_cons_self
    rcases hdue env hmem with ⟨c, v, id, -, ⟨-, hzero⟩ | ⟨hreply, -, -⟩⟩
    · exact .inl hzero
    · refine .inr (.inl ?_)
      rw [← hreplies]
      exact List.mem_map_of_mem (List.mem_filter.mpr ⟨hmem, hreply⟩)
  rw [hsaid] at hdue hreplies
  exact
    { looping := h.looping
      correlated := h.correlated.step hbound hsession
      answered := h.answered.step h.correlated (by decide)
        (le_lastId hbound) hans hsession
      verbs := h.verbs
      stdin := h.stdin
      sent := h.sent
      replies := hreplies
      due := hdue }

theorem started_le_of_coupled {a : CoupledAct} (h : step juce s a = some s') :
    s.session.started ≤ s'.session.started := by
  have hon : forall a, s.onSession a = some s' ->
      s.session.started ≤ s'.session.started := by
    intro a hsome
    rcases onSession_eq_some hsome with ⟨session, hsession, rfl⟩
    exact PluginSession.started_le_of_step hsession
  cases a with
  | start c v => exact hon _ h
  | session a => exact hon a (Option.ite_none_right_eq_some.mp h).right
  | iterate =>
      rcases iterate_eq_some h with ⟨req, rest, -, -, rfl⟩
      exact Nat.le_refl _
  | reply =>
      rcases reply_eq_some h with ⟨env, rest, -, -, rfl⟩
      exact Nat.le_refl _
  | recvEvent =>
      rcases queued_of_step (.inl h) with ⟨queued, rfl⟩
      exact Nat.le_refl _
  | othersSend =>
      rcases queued_of_step (.inr h) with ⟨queued, rfl⟩
      exact Nat.le_refl _

theorem step_matched {a : CoupledAct} (h : s.Matched)
    (hbound : s'.session.started < 2 ^ 64) (hstep : step juce s a = some s') :
    s'.Matched := by
  have hle := started_le_of_coupled hstep
  cases a with
  | start c v =>
      rcases onSession_eq_some hstep with ⟨session, hsession, rfl⟩
      have hframe : session.stdout = s.session.stdout ∧
          session.received = s.session.received ∧
          session.stdin = s.session.stdin := by
        cases PluginSession.performed_of_step hsession with
        | start => exact ⟨rfl, rfl, rfl⟩
      refine h.onSession hsession hbound trivial ⟨hframe.left, hframe.right.left⟩
        ⟨hframe.right.right ▸ List.prefix_rfl,
          fun req hreq => .inl (hframe.right.right ▸ hreq)⟩ ?_ _
      intro c' kind body heq
      cases heq
      exact ⟨v, rfl, rfl⟩
  | session a =>
      simp only [step] at hstep
      split at hstep
      · next htasks =>
          rcases onSession_eq_some hstep with ⟨session, hsession, rfl⟩
          have hans : s.session.Answers lastId a := by
            cases a with
            | hostWrites line => cases htasks
            | _ => trivial
          refine h.onSession hsession hbound hans (frame_of_tasks htasks hsession)
            (stdin_of_tasks htasks hsession) ?_ _
          rintro c kind body rfl
          cases htasks
      · cases hstep
  | iterate => exact h.iterate (Nat.lt_of_le_of_lt hle hbound) hstep
  | reply => exact h.reply (Nat.lt_of_le_of_lt hle hbound) hstep
  | recvEvent =>
      rcases queued_of_step (.inl hstep) with ⟨queued, rfl⟩
      exact h.queued queued
  | othersSend =>
      rcases queued_of_step (.inr hstep) with ⟨queued, rfl⟩
      exact h.queued queued

theorem run_matched {host : HostSession ι} {actions : List CoupledAct}
    (h : Transition.run (step juce) (spawned host) actions = some s)
    (hbound : s.session.started < 2 ^ 64) : s.Matched := by
  let Inv : Coupled ι -> Prop := fun t => t.session.started < 2 ^ 64 -> t.Matched
  have hkeep : forall t a t', Inv t -> True -> step juce t a = some t' -> Inv t' := by
    intro t a t' ih _ hstep hbound'
    have hle := started_le_of_coupled hstep
    exact step_matched (ih (Nat.lt_of_le_of_lt hle hbound')) hbound' hstep
  have hinv : Inv s :=
    Transition.run_invariant_of_steps (step juce) (fun _ _ => True)
      (fun _ => matched_spawned host) hkeep (fun _ _ _ _ _ => trivial) h
  exact hinv hbound

end Step

/-!
## Drained pipes
-/

/-- Nothing is on its way between the two ends, nor to the pump. -/
structure Drained (s : Coupled ι) : Prop where
  stdin : s.session.stdin = []
  outbox : s.outbox = []
  stdout : s.session.readCount = s.session.stdout.length
  reader : s.session.reader = .idle
  queued : s.queued = 0

section Drain

variable {s s' : Coupled ι}

theorem mem_said_of_drained (h : s.Drained) {env : Envelope Json}
    (henv : env ∈ s.said) : Line.envelope env ∈ s.session.stdout := by
  unfold said at henv
  rw [h.outbox, List.append_nil] at henv
  rcases List.mem_filterMap.mp henv with ⟨line, hline, hsome⟩
  cases line with
  | envelope env' =>
      cases hsome
      exact hline
  | nonJson => cases hsome

/-- Once the pipes are drained, a call that waits has its reply. -/
theorem Matched.awaited_of_drained (h : s.Matched) (hd : s.Drained) {c : Nat}
    {req : Envelope Json} (hcall : s.session.calls c = .waiting req) :
    exists (v : Verb) (env : Envelope Json), req = v.envelope req.id ∧
      s.session.awaited c req = some (.ok env) ∧ env.id = req.id ∧
        env.kind = v.replyKind := by
  have hrequest : (s.session.calls c).request = some req := by
    rw [hcall]
    rfl
  rcases h.verbs c req hrequest with ⟨v, hv⟩
  have hreceived : req.id ∈ s.session.received := by
    rcases h.sent c req hcall with hon | hreceived
    · rw [hd.stdin] at hon
      cases hon
    · exact hreceived
  rw [← h.replies] at hreceived
  rcases List.mem_map.mp hreceived with ⟨reply, hreply, hid⟩
  have hline := mem_said_of_drained hd (List.mem_filter.mp hreply).left
  have hhandled : s.session.handledLines = s.session.stdout := by
    unfold PluginSession.handledLines PluginSession.handledCount
    rw [hd.reader]
    dsimp only
    rw [hd.stdout]
    exact List.take_length
  rcases exists_firstMatch hline (Line.withId?_eq_some hid) with ⟨⟨n, env⟩, hfirst⟩
  have hmail : s.session.mail c = some (n, env) := by
    rw [h.answered.mail c req hrequest, hhandled]
    exact hfirst
  rcases h.correlated.mailed.request c n env hmail with ⟨req', hreq', hid'⟩
  cases hrequest.symm.trans hreq'
  have hsaid : env ∈ s.said :=
    List.mem_append_left _ (List.mem_filterMap.mpr
      ⟨_, List.mem_of_getElem? (h.correlated.mailed.line c n env hmail), rfl⟩)
  refine ⟨v, env, hv, ?_, hid'.symm, ?_⟩
  · unfold PluginSession.awaited
    rw [hmail]
  · rcases h.due env hsaid with ⟨c', v', id', hreq', ⟨-, hzero⟩ | ⟨-, henvid, hkind⟩⟩
    · have hrange := h.correlated.ids.range c req hrequest
      rw [hid', hzero] at hrange
      exact absurd hrange.left (Nat.lt_irrefl 0)
    · have hsame : c' = c := h.correlated.ids.distinct c' c _ req hreq' hrequest
        ((v'.envelope_id id').trans (henvid.symm.trans hid'.symm))
      rw [hsame, hrequest] at hreq'
      have hverb : v.envelope req.id = v'.envelope id' :=
        hv.symm.trans (Option.some.inj hreq')
      rw [hkind]
      exact (Verb.replyKind_eq hverb).symm

end Drain

/-!
## Draining

What is on its way reaches its end without any call: the host reads and writes,
the read loop reads and hands on, and the pump takes the events.
-/

/-- The actions of the host, of the read loop and of the pump. -/
def Inner : CoupledAct -> Prop
  | .iterate | .reply | .session .read | .session .dispatch | .recvEvent => True
  | _ => False

def holds : Reader Json -> Nat
  | .holding .. => 1
  | _ => 0

/-- Each request brings two envelopes at most, and each envelope is written, read,
handed on and perhaps pumped. -/
def work (s : Coupled ι) : Nat :=
  9 * s.session.stdin.length + 4 * s.outbox.length +
    3 * (s.session.stdout.length - s.session.readCount) +
      2 * holds s.session.reader + s.queued

/-- The pipes are being emptied, and the calls are those given. -/
structure Draining (calls : Nat -> CallState Json) (s : Coupled ι) : Prop where
  matched : s.Matched
  started : s.session.started < 2 ^ 64
  hostOpen : s.session.hostOpen = true
  reader : s.session.reader ≠ .stopped
  calls : s.session.calls = calls

section Draining

variable {s s' : Coupled ι} {calls : Nat -> CallState Json}

theorem Draining.iterate (h : s.Draining calls) (hstep : s.iterate juce = some s') :
    s'.Draining calls ∧ s'.work < s.work := by
  have hmatched := h.matched.iterate h.started hstep
  rcases iterate_eq_some hstep with ⟨req, rest, houtbox, hline, rfl⟩
  rcases h.matched.next hline with ⟨c, v, -, hread⟩
  have hlength := length_handle juce s.host v req.id
  rw [← hread] at hlength
  refine ⟨⟨hmatched, h.started, h.hostOpen, h.reader, h.calls⟩, ?_⟩
  unfold work
  rw [houtbox, hline, List.length_cons, List.length_nil]
  simp only [answering, PluginSession.hostReceive]
  omega

theorem Draining.reply (h : s.Draining calls) (hstep : s.reply = some s') :
    s'.Draining calls ∧ s'.work < s.work := by
  have hmatched := h.matched.reply h.started hstep
  rcases reply_eq_some hstep with ⟨env, rest, houtbox, -, rfl⟩
  refine ⟨⟨hmatched, h.started, h.hostOpen, h.reader, h.calls⟩, ?_⟩
  unfold work
  rw [houtbox, List.length_cons]
  simp only [PluginSession.hostWrite, List.length_append, List.length_singleton]
  omega

theorem Draining.recvEvent (h : s.Draining calls) (hstep : s.recvEvent = some s') :
    s'.Draining calls ∧ s'.work < s.work := by
  unfold Coupled.recvEvent at hstep
  split at hstep
  · next hqueued =>
      cases hstep
      refine ⟨⟨h.matched.queued _, h.started, h.hostOpen, h.reader, h.calls⟩, ?_⟩
      unfold work
      dsimp only
      omega
  · cases hstep

theorem sends_le_one (s : Coupled ι) (a : Action Json) : s.sends a ≤ 1 := by
  unfold sends
  split
  · split
    · split
      · exact Nat.le_refl 1
      · exact Nat.zero_le 1
    · exact Nat.zero_le 1
  · exact Nat.zero_le 1

theorem Draining.read (h : s.Draining calls)
    (hstep : step juce s (.session .read) = some s') :
    s'.Draining calls ∧ s'.work < s.work := by
  have hsome : s.onSession .read = some s' := hstep
  have hmatched : s'.session.started < 2 ^ 64 -> s'.Matched :=
    fun hbound => step_matched h.matched hbound hstep
  rcases onSession_eq_some hsome with ⟨session, hsession, rfl⟩
  cases PluginSession.performed_of_step hsession with
  | @readLine line hreader hline =>
      have hlt := (List.getElem?_eq_some_iff.mp hline).choose
      refine ⟨⟨hmatched h.started, h.started, h.hostOpen, ?_, h.calls⟩, ?_⟩
      · cases line <;> simp [PluginSession.readLine]
      · unfold work
        rw [hreader]
        simp only [PluginSession.readLine, sends]
        cases line <;> simp only [holds] <;> omega
  | readEnd hreader hline hclosed =>
      rw [h.hostOpen] at hclosed
      cases hclosed

theorem Draining.dispatch (h : s.Draining calls)
    (hstep : step juce s (.session .dispatch) = some s') :
    s'.Draining calls ∧ s'.work < s.work := by
  have hsome : s.onSession .dispatch = some s' := hstep
  have hmatched : s'.session.started < 2 ^ 64 -> s'.Matched :=
    fun hbound => step_matched h.matched hbound hstep
  rcases onSession_eq_some hsome with ⟨session, hsession, rfl⟩
  cases PluginSession.performed_of_step hsession with
  | @dispatch n env hreader =>
      have hbound : (s.session.dispatch n env).started < 2 ^ 64 := by
        rw [PluginSession.dispatch_started]
        exact h.started
      have hsends := s.sends_le_one .dispatch
      refine ⟨⟨hmatched hbound, hbound, ?_, ?_, ?_⟩, ?_⟩
      · show (s.session.dispatch n env).hostOpen = true
        rw [PluginSession.dispatch_eq]
        exact h.hostOpen
      · show (s.session.dispatch n env).reader ≠ .stopped
        rw [PluginSession.dispatch_reader]
        intro heq
        cases heq
      · show (s.session.dispatch n env).calls = calls
        rw [PluginSession.dispatch_calls]
        exact h.calls
      · unfold work
        simp only [PluginSession.dispatch_stdin, PluginSession.dispatch_stdout,
          PluginSession.dispatch_readCount, PluginSession.dispatch_reader, hreader,
          holds]
        omega

theorem Draining.step {a : CoupledAct} (h : s.Draining calls) (ha : Inner a)
    (hstep : step juce s a = some s') : s'.Draining calls ∧ s'.work < s.work := by
  cases a with
  | start c v => cases ha
  | iterate => exact h.iterate hstep
  | reply => exact h.reply hstep
  | recvEvent => exact h.recvEvent hstep
  | othersSend => cases ha
  | session a =>
      cases a with
      | read => exact h.read hstep
      | dispatch => exact h.dispatch hstep
      | _ => cases ha

/-- With nothing queued, only the session itself can hold a step up. -/
theorem session_of_onSession (hroom : s.queued = 0) {a : Action Json}
    (h : s.onSession a = none) : PluginSession.step s.session a = none := by
  have hless : s.queued < eventCapacity := by
    rw [hroom]
    decide
  unfold onSession at h
  rw [decide_eq_true hless, Bool.or_true, if_pos rfl] at h
  exact Option.map_eq_none_iff.mp h

/-- When neither end nor the pump has anything left to do, nothing is on its way. -/
theorem Draining.drained (h : s.Draining calls)
    (hsettled : Transition.Settled (Coupled.step juce) Inner s) : s.Drained := by
  have hqueued : s.queued = 0 := by
    have hrecv : s.recvEvent = none := hsettled .recvEvent trivial
    unfold Coupled.recvEvent at hrecv
    by_contra hne
    rw [if_pos (Nat.pos_of_ne_zero hne)] at hrecv
    cases hrecv
  have houtbox : s.outbox = [] := by
    cases houtbox : s.outbox with
    | nil => rfl
    | cons env rest =>
        have hreply : s.reply = none := hsettled .reply trivial
        simp [Coupled.reply, houtbox, h.hostOpen] at hreply
  have hreader : s.session.reader = .idle := by
    cases hreader : s.session.reader with
    | idle => rfl
    | holding n env =>
        have hdispatch : PluginSession.step s.session .dispatch = none :=
          session_of_onSession hqueued (hsettled (.session .dispatch) trivial)
        simp [PluginSession.step, hreader] at hdispatch
    | stopped => exact absurd hreader h.reader
  refine ⟨?_, houtbox, ?_, hreader, hqueued⟩
  · cases hstdin : s.session.stdin with
    | nil => rfl
    | cons req rest =>
        have hiterate : s.iterate juce = none := hsettled .iterate trivial
        simp [Coupled.iterate, houtbox, hstdin, h.hostOpen, h.matched.looping]
          at hiterate
  · have hread : PluginSession.step s.session .read = none :=
      session_of_onSession hqueued (hsettled (.session .read) trivial)
    have hle : s.session.readCount ≤ s.session.stdout.length :=
      h.matched.correlated.reading.bounded
    refine Nat.le_antisymm hle (Nat.le_of_not_lt fun hlt => ?_)
    simp [PluginSession.step, hreader, hlt] at hread

end Draining

/-- In every run, while the host lives and the read loop has met no error: however
the host, the loop and the pump go on from there, they come to an end, after which
nothing is on its way and every call that waits for its reply has one, of the right
kind. -/
theorem waiting_calls_answered {host : HostSession ι} {actions : List CoupledAct}
    {s : Coupled ι}
    (hrun : Transition.run (step juce) (spawned host) actions = some s)
    (hstarted : s.session.started < 2 ^ 64) (hopen : s.session.hostOpen = true)
    (hreader : s.session.reader ≠ .stopped) :
    (exists more s', (forall a, a ∈ more -> Inner a) ∧
      Transition.run (step juce) s more = some s' ∧
        Transition.Settled (step juce) Inner s') ∧
    forall more s', (forall a, a ∈ more -> Inner a) ->
      Transition.run (step juce) s more = some s' ->
        more.length ≤ s.work ∧ s'.session.calls = s.session.calls ∧
          (Transition.Settled (step juce) Inner s' -> s'.Drained ∧
            forall c req, s.session.calls c = .waiting req ->
              exists (v : Verb) (env : Envelope Json), req = v.envelope req.id ∧
                s'.session.awaited c req = some (.ok env) ∧ env.id = req.id ∧
                  env.kind = v.replyKind) := by
  have hdraining : s.Draining s.session.calls :=
    ⟨run_matched hrun hstarted, hstarted, hopen, hreader, rfl⟩
  have hdown : forall t a t', t.Draining s.session.calls -> Inner a ->
      step juce t a = some t' -> t'.Draining s.session.calls ∧ t'.work < t.work :=
    fun _ _ _ => Draining.step
  refine ⟨Transition.exists_settled hdown hdraining, ?_⟩
  intro more s' hinner hmore
  rcases Transition.length_add_work_le hdown hinner hdraining hmore with
    ⟨hdraining', hle⟩
  refine ⟨Nat.le_of_add_right_le hle, hdraining'.calls, ?_⟩
  intro hsettled
  have hdrained := hdraining'.drained hsettled
  refine ⟨hdrained, ?_⟩
  intro c req hcall
  exact hdraining'.matched.awaited_of_drained hdrained
    ((congrFun hdraining'.calls c).trans hcall)

private def loadVerb : Verb := .load "/p.vst3" "Bwc="

private def noteVerb : Verb := .midi 0x90 60 100

/-- A load and a note are on their way, nothing has been answered yet, and other
sessions have filled the channel of the events. -/
private def loadAndNote : List CoupledAct :=
  List.replicate eventCapacity .othersSend ++
  [.start 0 loadVerb, .start 1 noteVerb, .session (.insert 1), .session (.insert 0),
    .session (.write 1), .session (.write 0)]

/-- Other sessions fill the channel as far as its capacity goes. -/
theorem run_othersSend {s : Coupled ι} {n : Nat} (h : s.queued + n ≤ eventCapacity) :
    Transition.run (step juce) s (List.replicate n .othersSend) =
      some { s with queued := s.queued + n } := by
  induction n generalizing s with
  | zero => rfl
  | succ n ih =>
      have hstep : step juce s .othersSend = some { s with queued := s.queued + 1 } :=
        if_pos (Nat.lt_of_lt_of_le (Nat.lt_add_of_pos_right n.succ_pos) h)
      rw [List.replicate_succ, Transition.run_cons, hstep, Option.bind_some,
        ih (Nat.le_trans (Nat.le_of_eq (Nat.add_right_comm ..)) h)]
      simp only [Nat.add_right_comm, Nat.add_assoc]

private theorem loadAndNote_waiting (host : HostSession Unit) :
    exists s, Transition.run (step synthJuce) (spawned host) loadAndNote = some s ∧
      s.session.started = 2 ∧ s.session.hostOpen = true ∧ s.session.reader = .idle ∧
        s.session.calls 0 = .waiting (loadVerb.envelope 1) ∧
          s.session.calls 1 = .waiting (noteVerb.envelope 2) := by
  have hfull : Transition.run (step synthJuce) (spawned host)
      (List.replicate eventCapacity .othersSend) =
        some { spawned host with queued := 0 + eventCapacity } :=
    run_othersSend (Nat.le_of_eq (Nat.zero_add eventCapacity))
  unfold loadAndNote
  rw [Transition.run_append, hfull]
  exact ⟨_, rfl, rfl, rfl, rfl, rfl, rfl⟩

theorem waiting_calls_answered_loadAndNote :
    exists (actions : List CoupledAct) (s : Coupled Unit) (env env' : Envelope Json),
      Transition.run (step synthJuce)
          (spawned { plugin := none, pendingMidi := [] }) (loadAndNote ++ actions) =
        some s ∧
      s.session.awaited 0 (loadVerb.envelope 1) = some (.ok env) ∧
      env.kind = "load_result" ∧
      s.session.awaited 1 (noteVerb.envelope 2) = some (.ok env') ∧
      env'.kind = "ok" := by
  rcases loadAndNote_waiting { plugin := none, pendingMidi := [] } with
    ⟨s, hrun, hstarted, hopen, hidle, hload, hnote⟩
  have hbound : s.session.started < 2 ^ 64 := by
    rw [hstarted]
    decide
  have hreader : s.session.reader ≠ .stopped := by
    rw [hidle]
    exact nofun
  rcases waiting_calls_answered hrun hbound hopen hreader with
    ⟨⟨more, s', hinner, hmore, hsettled⟩, hend⟩
  have hreplies := ((hend more s' hinner hmore).right.right hsettled).right
  rcases hreplies 0 (loadVerb.envelope 1) hload with ⟨v, env, hv, hawaited, -, hkind⟩
  rcases hreplies 1 (noteVerb.envelope 2) hnote with
    ⟨v', env', hv', hawaited', -, hkind'⟩
  refine ⟨more, s', env, env', ?_, hawaited, ?_, hawaited', ?_⟩
  · rw [Transition.run_append, hrun]
    exact hmore
  · exact hkind.trans (Verb.replyKind_eq hv).symm
  · exact hkind'.trans (Verb.replyKind_eq hv').symm

end Coupled

end Host
end OpenMk3
