import OpenMk3.Library.Search
import OpenMk3.Session.Senders

/-!
# Reply correlation

Which host line completes which call.  For any host, a call is completed only
by a line with its id.  For a host that answers only what it has received, the
line is the first one with that id.
-/

namespace OpenMk3
namespace Session

open Library

variable {β : Type}

/-- The envelope on a line, when it carries the id. -/
def Line.withId? (id : UInt64) : Line β -> Option (Envelope β)
  | .envelope env => if env.id = id then some env else none
  | .nonJson => none

theorem Line.withId?_eq_some {id : UInt64} {env : Envelope β} (h : env.id = id) :
    (Line.envelope env).withId? id = some env :=
  if_pos h

theorem Line.withId?_eq_none {id : UInt64} {env : Envelope β} (h : env.id ≠ id) :
    (Line.envelope env).withId? id = none :=
  if_neg h

/-- The first line that carries the id, with its number. -/
def firstReply (id : UInt64) (lines : List (Line β)) :
    Option (Nat × Envelope β) :=
  firstMatch (Line.withId? id) lines

namespace PluginSession

/-- How many lines the loop is done with. -/
def handledCount (s : PluginSession β) : Nat :=
  match s.reader with
  | .holding n _ => n
  | _ => s.readCount

def handledLines (s : PluginSession β) : List (Line β) :=
  s.stdout.take s.handledCount

/-- What was sent to a call is a host line with the id of its request. -/
structure Mailed (s : PluginSession β) : Prop where
  request : forall c n env, s.mail c = some (n, env) ->
    exists req, (s.calls c).request = some req ∧ req.id = env.id
  line : forall c n env, s.mail c = some (n, env) ->
    s.stdout[n]? = some (.envelope env)

/-- The loop has taken the first lines, and every event among those it is done
with went to `events_tx`. -/
structure Reading (s : PluginSession β) : Prop where
  bounded : s.readCount <= s.stdout.length
  held : forall n env, s.reader = .holding n env ->
    n + 1 = s.readCount ∧ s.stdout[n]? = some (.envelope env)
  events : s.events = s.handledLines.filterMap (Line.withId? 0)

theorem Mailed.frame {s s' : PluginSession β} (h : s.Mailed)
    (hmail : s'.mail = s.mail) (hout : s.stdout <+: s'.stdout)
    (hreq : forall c, (s'.calls c).request = (s.calls c).request) :
    s'.Mailed where
  request := by
    intro c n env hm
    rw [hreq]
    exact h.request c n env (hmail ▸ hm)
  line := by
    intro c n env hm
    exact getElem?_of_prefix hout (h.line c n env (hmail ▸ hm))

/-!
## Lines
-/

theorem handledLines_hostWrite {s : PluginSession β} (line : Line β)
    (h : s.handledCount <= s.stdout.length) :
    (s.hostWrite line).handledLines = s.handledLines :=
  List.take_append_of_le_length h

theorem handledLines_readEnvelope {s : PluginSession β} (env : Envelope β)
    (hreader : s.reader = .idle) :
    (s.readLine (.envelope env)).handledLines = s.handledLines := by
  simp only [handledLines, handledCount, readLine, hreader]

theorem handledLines_readNonJson {s : PluginSession β}
    (hreader : s.reader = .idle)
    (hline : s.stdout[s.readCount]? = some .nonJson) :
    (s.readLine .nonJson).handledLines = s.handledLines ++ [.nonJson] := by
  simp only [handledLines, handledCount, readLine, hreader, List.take_add_one,
    hline, Option.toList_some]

theorem handledLines_stop {s : PluginSession β} (hreader : s.reader = .idle) :
    s.stop.handledLines = s.handledLines := by
  simp only [handledLines, handledCount, stop, hreader]

theorem Reading.handledCount_le {s : PluginSession β} (h : s.Reading) :
    s.handledCount <= s.stdout.length := by
  rw [handledCount]
  cases hreader : s.reader with
  | holding n env =>
      show n <= s.stdout.length
      have hheld := h.held n env hreader
      have hbounded := h.bounded
      omega
  | _ =>
      exact h.bounded

theorem Reading.handledLines_length {s : PluginSession β} (h : s.Reading)
    {n : Nat} {env : Envelope β} (hreader : s.reader = .holding n env) :
    s.handledLines.length = n := by
  have hle := h.handledCount_le
  rw [handledLines, List.length_take, Nat.min_eq_left hle]
  simp only [handledCount, hreader]

theorem Reading.handledLines_dispatch {s : PluginSession β} (h : s.Reading)
    {n : Nat} {env : Envelope β} (hreader : s.reader = .holding n env) :
    (s.dispatch n env).handledLines = s.handledLines ++ [.envelope env] := by
  rcases h.held n env hreader with ⟨hcount, hline⟩
  simp only [handledLines, handledCount, dispatch_reader, dispatch_readCount,
    dispatch_stdout, hreader]
  rw [<- hcount, List.take_add_one, hline, Option.toList_some]

theorem dispatch_events {s : PluginSession β} (n : Nat) (env : Envelope β) :
    (s.dispatch n env).events =
      s.events ++ ((Line.envelope env).withId? 0).toList := by
  by_cases hid : env.id = 0
  · rw [dispatch_event n hid]
    rw [Line.withId?_eq_some hid]
    rfl
  · rw [Line.withId?_eq_none hid, Option.toList_none, List.append_nil]
    cases hpending : s.pending env.id with
    | none =>
        rw [dispatch_unknown n hid hpending]
    | some c =>
        rw [dispatch_pending n hid hpending]

theorem Reading.step {s s' : PluginSession β} {a : Action β} (h : s.Reading)
    (hstep : step s a = some s') : s'.Reading := by
  cases performed_of_step hstep with
  | hostWrites line hopen =>
      refine ⟨?_, ?_, ?_⟩
      · have hbounded := h.bounded
        simp only [hostWrite, List.length_append, List.length_singleton]
        omega
      · intro n env hreader
        rcases h.held n env hreader with ⟨hcount, hline⟩
        exact ⟨hcount, getElem?_of_prefix (List.prefix_append ..) hline⟩
      · rw [handledLines_hostWrite line h.handledCount_le]
        exact h.events
  | @readLine line hreader hline =>
      have hlt : s.readCount < s.stdout.length :=
        (List.getElem?_eq_some_iff.mp hline).1
      cases line with
      | envelope env =>
          refine ⟨hlt, ?_, ?_⟩
          · intro n env' hheld
            cases hheld
            exact ⟨rfl, hline⟩
          · rw [handledLines_readEnvelope env hreader]
            exact h.events
      | nonJson =>
          refine ⟨hlt, ?_, ?_⟩
          · intro n env' hheld
            cases hheld
          · rw [handledLines_readNonJson hreader hline, List.filterMap_append,
              <- h.events]
            exact (List.append_nil s.events).symm
  | readEnd hreader _ _ | readFails hreader =>
      refine ⟨h.bounded, ?_, ?_⟩
      · intro n env hheld
        cases hheld
      · rw [handledLines_stop hreader]
        exact h.events
  | @dispatch n env hreader =>
      refine ⟨?_, ?_, ?_⟩
      · rw [dispatch_readCount, dispatch_stdout]
        exact h.bounded
      · intro m env' hheld
        rw [dispatch_reader] at hheld
        cases hheld
      · rw [h.handledLines_dispatch hreader, List.filterMap_append, <- h.events,
          dispatch_events, List.filterMap_cons]
        cases (Line.envelope env).withId? 0 <;> rfl
  | _ =>
      exact ⟨h.bounded, h.held, h.events⟩

theorem dispatch_mail {s : PluginSession β} {n c m : Nat} {env env' : Envelope β}
    (h : (s.dispatch n env).mail c = some (m, env')) :
    s.mail c = some (m, env') ∨
      s.pending env.id = some c ∧ env.id ≠ 0 ∧ m = n ∧ env' = env := by
  by_cases hid : env.id = 0
  · rw [dispatch_event n hid] at h
    exact .inl h
  by_cases howner : s.pending env.id = some c
  · cases hrecv : (s.calls c).receiving with
    | true =>
        rw [dispatch_mail_of_receiving n hid howner hrecv] at h
        cases h
        exact .inr ⟨howner, hid, rfl, rfl⟩
    | false =>
        rw [dispatch_mail_of_not_receiving n hid howner hrecv] at h
        exact .inl h
  · rw [dispatch_mail_of_ne n howner] at h
    exact .inl h

theorem Mailed.step {s s' : PluginSession β} {a : Action β} (h : s.Mailed)
    (ho : s.Owned) (hr : s.Reading) (hstep : step s a = some s') :
    s'.Mailed := by
  have hreq := request_of_step hstep
  cases performed_of_step hstep with
  | @start c kind body hcall =>
      refine ⟨?_, h.line⟩
      intro c' n env hm
      have hne : c' ≠ c := by
        intro heq
        have hserved := ho.served c
        rw [hcall, <- heq] at hserved
        cases hserved.symm.trans hm
      rw [PluginSession.allocate, request_update, if_neg hne]
      exact h.request c' n env hm
  | hostWrites line hopen =>
      exact h.frame rfl (List.prefix_append ..) (hreq (by simp))
  | @dispatch n env hreader =>
      constructor
      · intro c m env' hm
        rw [dispatch_calls]
        rcases dispatch_mail hm with hold | ⟨hpending, _, rfl, rfl⟩
        · exact h.request c m env' hold
        · exact (ho.pending _ c hpending).2
      · intro c m env' hm
        rw [dispatch_stdout]
        rcases dispatch_mail hm with hold | ⟨_, _, rfl, rfl⟩
        · exact h.line c m env' hold
        · exact (hr.held _ _ hreader).2
  | _ =>
      exact h.frame rfl (List.prefix_refl _) (hreq (by simp))

/-- What holds in every state reached with ids to spare. -/
structure Correlated (s : PluginSession β) : Prop where
  ids : s.Ids
  owned : s.Owned
  mailed : s.Mailed
  reading : s.Reading

theorem correlated_spawned : (spawned : PluginSession β).Correlated where
  ids :=
    { next := rfl
      range := fun _ _ h => nomatch h
      distinct := fun _ _ _ _ h => nomatch h }
  owned :=
    { pending := fun _ _ h => nomatch h
      served := fun _ => rfl }
  mailed :=
    { request := fun _ _ _ h => nomatch h
      line := fun _ _ _ h => nomatch h }
  reading :=
    { bounded := Nat.le_refl 0
      held := fun _ _ h => nomatch h
      events := rfl }

theorem Correlated.step {s s' : PluginSession β} {a : Action β}
    (h : s.Correlated) (hbound : s'.started < 2 ^ 64)
    (hstep : step s a = some s') : s'.Correlated where
  ids := h.ids.step hbound hstep
  owned := h.owned.step h.ids hstep
  mailed := h.mailed.step h.owned h.reading hstep
  reading := h.reading.step hstep

theorem correlated_of_run {xs : List (Action β)} {s : PluginSession β}
    (hrun : Transition.run step spawned xs = some s)
    (hbound : s.started < 2 ^ 64) : s.Correlated := by
  let Inv : PluginSession β -> Prop := fun t => t.started < 2 ^ 64 -> t.Correlated
  have hkeep : forall t a t', Inv t -> True -> step t a = some t' -> Inv t' := by
    intro t a t' ih _ hstep hbound'
    have hle := started_le_of_step hstep
    exact (ih (by omega)).step hbound' hstep
  have hinv : Inv s :=
    Transition.run_invariant_of_steps step (fun _ _ => True)
      (fun _ => correlated_spawned) hkeep (fun _ _ _ _ _ => trivial) hrun
  exact hinv hbound

/-!
## Hosts that answer what they have received
-/

/-- The host writes an envelope only as an event, as a reply to a request it
has received, or under an id that none of the run's calls has. -/
def Answers (calls : Nat) (s : PluginSession β) : Action β -> Prop
  | .hostWrites (.envelope env) =>
      env.id = 0 ∨ env.id ∈ s.received ∨ calls < env.id.toNat
  | _ => True

/-- The request of a call whose line has been written. -/
def Written (s : PluginSession β) (id : UInt64) : Prop :=
  exists c req, req.id = id ∧
    (s.calls c = .waiting req ∨ exists env, s.calls c = .returned req (.ok env))

/-- With an answering host each call's mail is the first of the handled lines
with its id. -/
structure Answered (calls : Nat) (s : PluginSession β) : Prop where
  stdin : forall req, req ∈ s.stdin -> s.Written req.id
  received : forall id, id ∈ s.received -> s.Written id
  lines : forall env, Line.envelope env ∈ s.stdout ->
    env.id = 0 ∨ env.id ∈ s.received ∨ calls < env.id.toNat
  mail : forall c req, (s.calls c).request = some req ->
    s.mail c = firstReply req.id s.handledLines

theorem Written.request {s : PluginSession β} {id : UInt64} (h : s.Written id) :
    exists c req, (s.calls c).request = some req ∧ req.id = id := by
  rcases h with ⟨c, req, hid, hcall | ⟨env, hcall⟩⟩
  · exact ⟨c, req, by rw [hcall]; rfl, hid⟩
  · exact ⟨c, req, by rw [hcall]; rfl, hid⟩

/-- A written request stays written. -/
theorem Written.step {s s' : PluginSession β} {a : Action β} {id : UInt64}
    (h : s.Written id) (ho : s.Owned) (hstep : step s a = some s') :
    s'.Written id := by
  rcases h with ⟨c, req, hid, hcall⟩
  have hkeep : forall c' st, c' ≠ c ->
      (forall c'', s'.calls c'' = Function.update s.calls c' st c'') ->
      s'.Written id := by
    intro c' st hne hcalls
    refine ⟨c, req, hid, ?_⟩
    rw [hcalls, Function.update_of_ne hne.symm]
    exact hcall
  have hother : forall c', (forall req', s.calls c' ≠ .waiting req') ->
      (forall req' result, s.calls c' ≠ .returned req' result) -> c' ≠ c := by
    intro c' hwaiting hreturned heq
    rcases hcall with hcall | ⟨env, hcall⟩
    · exact hwaiting req (heq ▸ hcall)
    · exact hreturned req _ (heq ▸ hcall)
  cases performed_of_step hstep with
  | start kind body hst | insert hst | write hst | writeFails hst =>
      refine hkeep _ _ (hother _ ?_ ?_) (fun _ => rfl)
      · simp [hst]
      · simp [hst]
  | @resume c' req' result hst hresult =>
      by_cases heq : c' = c
      · subst heq
        rcases ho.awaited hst hresult with ⟨n, env, _, rfl⟩
        have hreq : req' = req := by
          rcases hcall with hcall | ⟨_, hcall⟩ <;> rw [hst] at hcall
          · cases hcall
            rfl
          · cases hcall
        subst hreq
        exact ⟨c', req', hid, .inr ⟨env, Function.update_self ..⟩⟩
      · exact hkeep c' _ heq (fun _ => rfl)
  | dispatch hreader =>
      refine ⟨c, req, hid, ?_⟩
      rw [dispatch_calls]
      exact hcall
  | _ =>
      exact ⟨c, req, hid, hcall⟩

theorem Written.owner {s : PluginSession β} {id : UInt64} (h : s.Written id)
    (hi : s.Ids) {c : Nat} {req : Envelope β}
    (hreq : (s.calls c).request = some req) (hid : req.id = id) :
    s.calls c = .waiting req ∨ exists env, s.calls c = .returned req (.ok env) := by
  rcases h with ⟨c', req', hid', hcall⟩
  have hreq' : (s.calls c').request = some req' := by
    rcases hcall with hcall | ⟨env, hcall⟩ <;> rw [hcall] <;> rfl
  have hc := hi.distinct c' c req' req hreq' hreq (hid'.trans hid.symm)
  subst hc
  rw [hreq] at hreq'
  cases hreq'
  exact hcall

section Step

variable {calls : Nat} {s s' : PluginSession β} {a : Action β}

theorem Answered.stdin_step (h : s.Answered calls) (ho : s.Owned)
    (hstep : step s a = some s') (req : Envelope β) (hreq : req ∈ s'.stdin) :
    s'.Written req.id := by
  have hkeep : req ∈ s.stdin -> s'.Written req.id := fun hold =>
    (h.stdin req hold).step ho hstep
  cases performed_of_step hstep with
  | @write c req' hcall =>
      rcases List.mem_append.mp hreq with hold | hnew
      · exact hkeep hold
      · rw [List.mem_singleton.mp hnew]
        exact ⟨c, req', rfl, .inl (Function.update_self ..)⟩
  | hostReceives hstdin =>
      apply hkeep
      rw [hstdin]
      exact List.mem_cons_of_mem _ hreq
  | dispatch hreader =>
      rw [dispatch_stdin] at hreq
      exact hkeep hreq
  | _ =>
      exact hkeep hreq

theorem Answered.received_step (h : s.Answered calls) (ho : s.Owned)
    (hstep : step s a = some s') (id : UInt64) (hid : id ∈ s'.received) :
    s'.Written id := by
  have hkeep : id ∈ s.received -> s'.Written id := fun hold =>
    (h.received id hold).step ho hstep
  cases performed_of_step hstep with
  | @hostReceives req rest hstdin =>
      rcases List.mem_append.mp hid with hold | hnew
      · exact hkeep hold
      · rw [List.mem_singleton.mp hnew]
        have hwritten := h.stdin req (by rw [hstdin]; exact List.mem_cons_self)
        exact hwritten.step ho hstep
  | dispatch hreader =>
      rw [dispatch_received] at hid
      exact hkeep hid
  | _ =>
      exact hkeep hid

theorem Answered.lines_step (h : s.Answered calls) (hans : s.Answers calls a)
    (hstep : step s a = some s') (env : Envelope β)
    (henv : Line.envelope env ∈ s'.stdout) :
    env.id = 0 ∨ env.id ∈ s'.received ∨ calls < env.id.toNat := by
  cases performed_of_step hstep with
  | @hostReceives req rest hstdin =>
      rcases h.lines env henv with hzero | hold | hunknown
      · exact .inl hzero
      · exact .inr (.inl (List.mem_append_left _ hold))
      · exact .inr (.inr hunknown)
  | hostWrites line hopen =>
      rcases List.mem_append.mp henv with hold | hnew
      · exact h.lines env hold
      · rw [<- List.mem_singleton.mp hnew] at hans
        exact hans
  | dispatch hreader =>
      rw [dispatch_stdout] at henv
      rw [dispatch_received]
      exact h.lines env henv
  | _ =>
      exact h.lines env henv

/-- No line has an id that is about to be given out. -/
theorem Answered.firstReply_fresh (h : s.Answered calls) (hi : s.Ids) {id : UInt64}
    (hfresh : s.started < id.toNat) (hid : id.toNat <= calls) :
    firstReply id s.handledLines = none := by
  apply firstMatch_eq_none
  intro line hmem
  cases line with
  | nonJson =>
      rfl
  | envelope env =>
      apply Line.withId?_eq_none
      intro heq
      rcases h.lines env (List.mem_of_mem_take hmem) with hzero | hold | hunknown
      · rw [<- heq, hzero] at hfresh
        exact absurd hfresh (Nat.not_lt_zero _)
      · rcases (h.received env.id hold).request with ⟨c, req, hreq, hreqid⟩
        have hrange := hi.range c req hreq
        rw [hreqid, heq] at hrange
        omega
      · rw [heq] at hunknown
        omega

/-- The line in hand is sent to the call with its id, unless an earlier line
was. -/
theorem Answered.mail_dispatch (h : s.Answered calls) (hc : s.Correlated)
    (hcalls : s.started <= calls) {n : Nat} {env : Envelope β}
    (hreader : s.reader = .holding n env) {c : Nat} {req : Envelope β}
    (hreq : (s.calls c).request = some req) :
    (s.dispatch n env).mail c =
      firstReply req.id (s.dispatch n env).handledLines := by
  have hmail := h.mail c req hreq
  have hrange := hc.ids.range c req hreq
  rw [hc.reading.handledLines_dispatch hreader]
  by_cases hid : env.id = req.id
  · have hzero : env.id ≠ 0 := by
      intro hzero
      rw [<- hid, hzero] at hrange
      exact absurd hrange.1 (Nat.lt_irrefl 0)
    have hmem : Line.envelope env ∈ s.stdout :=
      List.mem_of_getElem? (hc.reading.held n env hreader).2
    have hreceived : env.id ∈ s.received := by
      rcases h.lines env hmem with h0 | hold | hunknown
      · exact absurd h0 hzero
      · exact hold
      · rw [hid] at hunknown
        omega
    have hcall := (h.received env.id hreceived).owner hc.ids hreq hid.symm
    have hserved := hc.owned.served c
    rw [firstReply, firstMatch_snoc, <- firstReply, <- hmail,
      Line.withId?_eq_some hid, hc.reading.handledLines_length hreader]
    cases hold : s.mail c with
    | some p =>
        have hgone : s.pending env.id ≠ some c := by
          intro howner
          have hnone := (hc.owned.pending env.id c howner).1
          rw [hold] at hnone
          cases hnone
        exact (dispatch_mail_of_ne n hgone).trans hold
    | none =>
        rcases hcall with hcall | ⟨env', hcall⟩ <;> rw [hcall] at hserved
        · have howner : s.pending env.id = some c := by
            rw [hid]
            exact hserved hold
          exact dispatch_mail_of_receiving n hzero howner (by rw [hcall]; rfl)
        · rcases hserved with ⟨m, hm⟩
          rw [hold] at hm
          cases hm
  · have hother : s.pending env.id ≠ some c := by
      intro howner
      exact hid (hc.owned.id_of_pending howner hreq).symm
    rw [firstReply, firstMatch_snoc_of_none _ (Line.withId?_eq_none hid),
      <- firstReply, <- hmail]
    exact dispatch_mail_of_ne n hother

theorem Answered.mail_step (h : s.Answered calls) (hc : s.Correlated)
    (hbound : calls < 2 ^ 64) (hcalls : s'.started <= calls)
    (hstep : step s a = some s') (c : Nat) (req : Envelope β)
    (hreq : (s'.calls c).request = some req) :
    s'.mail c = firstReply req.id s'.handledLines := by
  have hkeep : (s'.calls c).request = (s.calls c).request ->
      s.mail c = firstReply req.id s.handledLines := fun hsame =>
    h.mail c req (hsame ▸ hreq)
  have hsame := request_of_step hstep
  have hle := started_le_of_step hstep
  cases performed_of_step hstep with
  | @start c' kind body hcall =>
      have hstarted : s.started + 1 <= calls := hcalls
      have hnew := hc.ids.nextId_toNat (by omega)
      rw [PluginSession.allocate, request_update] at hreq
      by_cases heq : c = c'
      · rw [if_pos heq] at hreq
        cases hreq
        have hserved := hc.owned.served c
        rw [heq, hcall, <- heq] at hserved
        have hnone : firstReply s.nextId s.handledLines = none :=
          h.firstReply_fresh hc.ids (by omega) (by omega)
        exact Eq.trans hserved hnone.symm
      · rw [if_neg heq] at hreq
        exact h.mail c req hreq
  | hostWrites line hopen =>
      rw [handledLines_hostWrite line hc.reading.handledCount_le]
      exact hkeep (hsame (by simp) c)
  | @readLine line hreader hline =>
      cases line with
      | envelope env =>
          rw [handledLines_readEnvelope env hreader]
          exact hkeep rfl
      | nonJson =>
          rw [handledLines_readNonJson hreader hline, firstReply,
            firstMatch_snoc_of_none _ rfl]
          exact hkeep rfl
  | readEnd hreader _ _ | readFails hreader =>
      rw [handledLines_stop hreader]
      exact hkeep rfl
  | dispatch hreader =>
      rw [dispatch_calls] at hreq
      exact h.mail_dispatch hc (by omega) hreader hreq
  | _ =>
      exact hkeep (hsame (by simp) c)

theorem Answered.step (h : s.Answered calls) (hc : s.Correlated)
    (hbound : calls < 2 ^ 64) (hcalls : s'.started <= calls)
    (hans : s.Answers calls a) (hstep : PluginSession.step s a = some s') :
    s'.Answered calls where
  stdin := h.stdin_step hc.owned hstep
  received := h.received_step hc.owned hstep
  lines := h.lines_step hans hstep
  mail := h.mail_step hc hbound hcalls hstep

end Step

theorem answered_spawned (calls : Nat) :
    (spawned : PluginSession β).Answered calls where
  stdin := fun _ h => nomatch h
  received := fun _ h => nomatch h
  lines := fun _ h => nomatch h
  mail := fun _ _ h => nomatch h

theorem answered_of_run {xs : List (Action β)} {s : PluginSession β} {calls : Nat}
    (hrun : Transition.run step spawned xs = some s)
    (hbound : calls < 2 ^ 64) (hcalls : s.started <= calls)
    (hans : forall pre a t, pre ++ [a] <+: xs ->
      Transition.run step spawned pre = some t -> t.Answers calls a) :
    s.Answered calls := by
  let Inv : PluginSession β -> Prop := fun t =>
    t.started <= calls -> t.Correlated ∧ t.Answered calls
  have hkeep : forall t a t', Inv t -> t.Answers calls a ->
      step t a = some t' -> Inv t' := by
    intro t a t' ih hok hstep hle'
    have hle := started_le_of_step hstep
    rcases ih (by omega) with ⟨hc, ha⟩
    exact ⟨hc.step (by omega) hstep, ha.step hc hbound hle' hok hstep⟩
  have hinv : Inv s :=
    Transition.run_invariant_of_steps step (fun t a => t.Answers calls a)
      (fun _ => ⟨correlated_spawned, answered_spawned calls⟩) hkeep hans hrun
  exact (hinv hcalls).2

/-- While ids last, no call is told that the host closed. -/
theorem closed_never_returned {xs : List (Action β)} {s : PluginSession β}
    (hrun : Transition.run step spawned xs = some s)
    (hbound : s.started < 2 ^ 64) {c : Nat} {req : Envelope β} :
    s.calls c ≠ .returned req (.error .closed) := by
  intro hcall
  have hserved := (correlated_of_run hrun hbound).owned.served c
  rw [hcall] at hserved
  exact hserved

/-- Replies reach their callers.  A call that returns an envelope returns one
with its own id, taken from a host line that completes no other call, and the
events among the lines go to `events_tx` alone.  With a host that answers only
what it has received, the first line with the id of a call that waits has been
sent to that call once the loop is done with the line. -/
theorem call_correlation {xs : List (Action β)} {s : PluginSession β}
    (hrun : Transition.run step spawned xs = some s)
    (hbound : s.started < 2 ^ 64) :
    (forall c req env, s.calls c = .returned req (.ok env) ->
      env.id = req.id ∧ exists n, s.mail c = some (n, env)) ∧
    (forall c n env, s.mail c = some (n, env) ->
      s.stdout[n]? = some (.envelope env) ∧ env.id ≠ 0 ∧
        forall c' env', s.mail c' = some (n, env') -> c' = c) ∧
    s.events = s.handledLines.filterMap (Line.withId? 0) ∧
    ((forall pre a t, pre ++ [a] <+: xs ->
        Transition.run step spawned pre = some t -> t.Answers s.started a) ->
      forall c req n env, s.calls c = .waiting req ->
        s.stdout[n]? = some (.envelope env) -> env.id = req.id ->
        (forall m env', m < n -> s.stdout[m]? = some (.envelope env') ->
          env'.id ≠ req.id) ->
        n < s.handledCount -> s.mail c = some (n, env)) := by
  have hc := correlated_of_run hrun hbound
  have hid : forall c n env, s.mail c = some (n, env) ->
      exists req, (s.calls c).request = some req ∧ req.id = env.id :=
    hc.mailed.request
  refine ⟨?_, ?_, hc.reading.events, ?_⟩
  · intro c req env hcall
    have hserved := hc.owned.served c
    rw [hcall] at hserved
    rcases hserved with ⟨n, hmail⟩
    rcases hid c n env hmail with ⟨req', hreq', hid'⟩
    rw [hcall] at hreq'
    cases hreq'
    exact ⟨hid'.symm, n, hmail⟩
  · intro c n env hmail
    rcases hid c n env hmail with ⟨req, hreq, hreqid⟩
    have hline := hc.mailed.line c n env hmail
    refine ⟨hline, ?_, ?_⟩
    · intro hzero
      have hrange := hc.ids.range c req hreq
      rw [hreqid, hzero] at hrange
      exact absurd hrange.1 (Nat.lt_irrefl 0)
    · intro c' env' hmail'
      rcases hid c' n env' hmail' with ⟨req', hreq', hreqid'⟩
      have hline' := hc.mailed.line c' n env' hmail'
      rw [hline] at hline'
      cases hline'
      exact hc.ids.distinct c' c req' req hreq' hreq (hreqid'.trans hreqid.symm)
  · intro hans c req n env hcall hline hreply hfirst hhandled
    have ha := answered_of_run hrun hbound (Nat.le_refl s.started) hans
    rw [ha.mail c req (by rw [hcall]; rfl)]
    have htake : forall m, m <= n -> s.handledLines[m]? = s.stdout[m]? := by
      intro m hm
      exact List.getElem?_take_of_lt (by omega)
    apply firstMatch_eq_some
    · rw [htake n (Nat.le_refl n), hline]
    · exact Line.withId?_eq_some hreply
    · intro m line hm hm'
      rw [htake m (by omega)] at hm'
      cases line with
      | nonJson =>
          rfl
      | envelope env' =>
          exact Line.withId?_eq_none (hfirst m env' hm hm')

def loadReply : Envelope Unit :=
  { id := 1, kind := "ok", body := () }

/-- A request and its reply. -/
def exchange : List (Action Unit) :=
  [.start 0 "load" (), .insert 0, .write 0, .hostReceives,
    .hostWrites (.envelope loadReply), .read, .dispatch]

theorem exchange_answers (pre : List (Action Unit)) (a : Action Unit)
    (t : PluginSession Unit) (hpre : pre ++ [a] <+: exchange)
    (ht : Transition.run step spawned pre = some t) : t.Answers 1 a := by
  have ha : exchange[pre.length]? = some a :=
    getElem?_of_prefix hpre (by simp)
  have htake : pre = exchange.take pre.length :=
    List.prefix_iff_eq_take.mp ((List.prefix_append pre [a]).trans hpre)
  rw [htake] at ht
  match hk : pre.length with
  | 0 | 1 | 2 | 3 | 5 | 6 =>
      rw [hk] at ha
      cases ha
      trivial
  | 4 =>
      rw [hk] at ha ht
      cases ha
      cases ht
      exact .inr (.inl (List.mem_singleton.mpr rfl))
  | k + 7 =>
      rw [hk] at ha
      simp [exchange] at ha

theorem call_correlation_exchange :
    exists s : PluginSession Unit,
      Transition.run step spawned exchange = some s ∧
        s.mail 0 = some (0, loadReply) := by
  refine ⟨_, rfl, ?_⟩
  refine (call_correlation (by rfl) (by decide)).2.2.2 exchange_answers 0
    { id := 1, kind := "load", body := () } 0 loadReply rfl rfl rfl ?_ (by decide)
  intro m env' hm
  exact absurd hm (Nat.not_lt_zero m)

end PluginSession

end Session
end OpenMk3
