import OpenMk3.Nks.Types
import OpenMk3.Session.Correlation

/-!
# Session manager

The map from bundles to sessions, over any number of concurrent `load` calls
and any life of the host processes.  The lookup, the spawn and the insertion
are one step, since `load` holds the lock over all three.
-/

namespace OpenMk3
namespace Session

open Library Nks

/-- A spawned host and the bundle it was spawned for. -/
structure Host (β : Type) where
  bundle : Path
  session : PluginSession β

/-- A `load` call when it starts: its arguments, how many hosts there are, and
the session recorded for the bundle if its `read_loop` has returned. -/
structure LoadStart where
  bundle : Path
  stateBase64 : String
  hostCount : Nat
  dead : Option Nat

inductive LoadState where
  | ready
  | begun (start : LoadStart)
  | spawnFailed (start : LoadStart)
  | routed (start : LoadStart) (host : Nat)
  | sent (start : LoadStart) (host : Nat)

/-- The host a load goes to. -/
def LoadState.target : LoadState -> Option (LoadStart × Nat)
  | routed start host => some (start, host)
  | sent start host => some (start, host)
  | _ => none

def Reader.hasStopped {β : Type} : Reader β -> Bool
  | .stopped => true
  | _ => false

structure SessionManager (β : Type) where
  hosts : List (Host β)
  byBundle : Path -> Option Nat
  loads : Nat -> LoadState

/-- The points at which the loads and the hosts interleave. -/
inductive ManagerAction (β : Type) where
  | start (load : Nat) (bundle : Path) (stateBase64 : String)
  | route (load : Nat)
  | spawnFails (load : Nat)
  | send (load : Nat)
  | inSession (host : Nat) (a : Action β)

namespace SessionManager

variable {β : Type}

def new : SessionManager β :=
  { hosts := [], byBundle := fun _ => none, loads := fun _ => .ready }

def setLoad (m : SessionManager β) (l : Nat) (st : LoadState) :
    SessionManager β :=
  { m with loads := Function.update m.loads l st }

/-- The session recorded for a bundle, when its `read_loop` has returned. -/
def deadSession (m : SessionManager β) (bundle : Path) : Option Nat :=
  (m.byBundle bundle).filter fun i =>
    match m.hosts[i]? with
    | some host => host.session.reader.hasStopped
    | none => false

def begin (m : SessionManager β) (bundle : Path) (stateBase64 : String) :
    LoadStart :=
  { bundle := bundle
    stateBase64 := stateBase64
    hostCount := m.hosts.length
    dead := m.deadSession bundle }

def spawn (m : SessionManager β) (bundle : Path) : SessionManager β :=
  { m with
    hosts := m.hosts ++ [{ bundle := bundle, session := .spawned }]
    byBundle := Function.update m.byBundle bundle (some m.hosts.length) }

/-- Under the lock: the session of the bundle, or a new one. -/
def route (m : SessionManager β) (l : Nat) (start : LoadStart) :
    SessionManager β :=
  match m.byBundle start.bundle with
  | some i => m.setLoad l (.routed start i)
  | none => (m.spawn start.bundle).setLoad l (.routed start m.hosts.length)

/-- One step of a host's session. -/
def stepHost (m : SessionManager β) (i : Nat) (a : Action β) :
    Option (SessionManager β) :=
  match m.hosts[i]? with
  | some host =>
      (PluginSession.step host.session a).map fun session =>
        { m with hosts := m.hosts.set i { host with session := session } }
  | none => none

/-- `loadBody` builds the object that `load` sends. -/
def step (loadBody : Path -> String -> β) :
    Transition (SessionManager β) (ManagerAction β)
  | m, .start l bundle stateBase64 =>
      match m.loads l with
      | .ready => some (m.setLoad l (.begun (m.begin bundle stateBase64)))
      | _ => none
  | m, .route l =>
      match m.loads l with
      | .begun start => some (m.route l start)
      | _ => none
  | m, .spawnFails l =>
      match m.loads l with
      | .begun start =>
          match m.byBundle start.bundle with
          | none => some (m.setLoad l (.spawnFailed start))
          | some _ => none
      | _ => none
  | m, .send l =>
      match m.loads l with
      | .routed start i =>
          (m.stepHost i
              (.start l "load" (loadBody start.bundle start.stateBase64))).map
            fun m' => m'.setLoad l (.sent start i)
      | _ => none
  | m, .inSession i a =>
      -- Calls on a session are started by `load`.
      match a with
      | .start _ _ _ => none
      | _ => m.stepHost i a

/-- What each action does when it is enabled. -/
inductive Performed (loadBody : Path -> String -> β) (m : SessionManager β) :
    ManagerAction β -> SessionManager β -> Prop where
  | start {l : Nat} (bundle : Path) (stateBase64 : String)
      (hload : m.loads l = .ready) :
      Performed loadBody m (.start l bundle stateBase64)
        (m.setLoad l (.begun (m.begin bundle stateBase64)))
  | route {l : Nat} {start : LoadStart} (hload : m.loads l = .begun start) :
      Performed loadBody m (.route l) (m.route l start)
  | spawnFails {l : Nat} {start : LoadStart} (hload : m.loads l = .begun start)
      (hentry : m.byBundle start.bundle = none) :
      Performed loadBody m (.spawnFails l) (m.setLoad l (.spawnFailed start))
  | send {l i : Nat} {start : LoadStart} {m' : SessionManager β}
      (hload : m.loads l = .routed start i)
      (hhost : m.stepHost i
        (.start l "load" (loadBody start.bundle start.stateBase64)) = some m') :
      Performed loadBody m (.send l) (m'.setLoad l (.sent start i))
  | inSession {i : Nat} {a : Action β} {m' : SessionManager β}
      (hhost : m.stepHost i a = some m') :
      Performed loadBody m (.inSession i a) m'

theorem performed_of_step {loadBody : Path -> String -> β}
    {m m' : SessionManager β} {a : ManagerAction β}
    (h : step loadBody m a = some m') : Performed loadBody m a m' := by
  cases a with
  | start l bundle stateBase64 =>
      cases hload : m.loads l <;> simp only [step, hload] at h
      all_goals cases h
      exact .start bundle stateBase64 hload
  | route l =>
      cases hload : m.loads l <;> simp only [step, hload] at h
      all_goals cases h
      exact .route hload
  | spawnFails l =>
      cases hload : m.loads l with
      | begun start =>
          cases hentry : m.byBundle start.bundle <;>
            simp only [step, hload, hentry] at h
          all_goals cases h
          exact .spawnFails hload hentry
      | _ =>
          simp only [step, hload] at h
          cases h
  | send l =>
      cases hload : m.loads l with
      | routed start i =>
          simp only [step, hload] at h
          rcases Option.map_eq_some_iff.mp h with ⟨t, hhost, rfl⟩
          exact .send hload hhost
      | _ =>
          simp only [step, hload] at h
          cases h
  | inSession i a =>
      cases a with
      | start c kind body =>
          cases h
      | _ =>
          exact .inSession h

/-- A load that starts after the loop of its bundle's session has returned goes
to a host spawned since. -/
def Recovers (m : SessionManager β) : Prop :=
  forall l start i d, (m.loads l).target = some (start, i) ->
    start.dead = some d -> start.hostCount <= i ∧ i ≠ d

/-- No two hosts have been spawned for one bundle. -/
def OneHost (m : SessionManager β) : Prop :=
  forall (i j : Nat) (host host' : Host β), m.hosts[i]? = some host ->
    m.hosts[j]? = some host' -> host.bundle = host'.bundle -> i = j

/-- The lock is not taken by a load that started after the loop of its
bundle's session had returned. -/
def RoutesLive (m : SessionManager β) : ManagerAction β -> Prop
  | .route l => forall start, m.loads l = .begun start -> start.dead = none
  | _ => True

/-- The map and the hosts name each other, an entry stays for good, and what a
load saw when it started is still so when it takes the lock. -/
structure Recorded (m : SessionManager β) : Prop where
  host : forall bundle i, m.byBundle bundle = some i ->
    (m.hosts.map Host.bundle)[i]? = some bundle
  entry : forall i bundle, (m.hosts.map Host.bundle)[i]? = some bundle ->
    m.byBundle bundle = some i
  begun : forall l start d, m.loads l = .begun start -> start.dead = some d ->
    m.byBundle start.bundle = some d

/-- What a step of a host's session does to the manager. -/
theorem stepHost_eq_some {m m' : SessionManager β} {i : Nat} {a : Action β}
    (h : m.stepHost i a = some m') :
    exists host session, m.hosts[i]? = some host ∧
      PluginSession.step host.session a = some session ∧
      m' = { m with hosts := m.hosts.set i { host with session := session } } := by
  rw [stepHost] at h
  cases hhost : m.hosts[i]? with
  | none =>
      rw [hhost] at h
      cases h
  | some host =>
      rw [hhost] at h
      rcases Option.map_eq_some_iff.mp h with ⟨session, hsession, rfl⟩
      exact ⟨host, session, rfl, hsession, rfl⟩

theorem stepHost_eq {m m' : SessionManager β} {i : Nat} {a : Action β}
    (h : m.stepHost i a = some m') :
    m'.hosts.map Host.bundle = m.hosts.map Host.bundle ∧
      m'.byBundle = m.byBundle ∧ m'.loads = m.loads := by
  rcases stepHost_eq_some h with ⟨host, session, hhost, _, rfl⟩
  refine ⟨?_, rfl, rfl⟩
  rcases List.getElem?_eq_some_iff.mp hhost with ⟨hlt, hget⟩
  have hlt' : i < (m.hosts.map Host.bundle).length := by
    rw [List.length_map]
    exact hlt
  have hsame : (m.hosts.map Host.bundle)[i] = host.bundle := by
    rw [List.getElem_map, hget]
  show (m.hosts.set i { host with session := session }).map Host.bundle =
    m.hosts.map Host.bundle
  rw [List.map_set]
  show (m.hosts.map Host.bundle).set i host.bundle = m.hosts.map Host.bundle
  rw [<- hsame, List.set_getElem_self]

theorem recorded_new : (new : SessionManager β).Recorded where
  host := fun _ _ h => nomatch h
  entry := fun _ _ h => nomatch h
  begun := fun _ _ _ h => nomatch h

theorem Recorded.frame {m m' : SessionManager β} (h : m.Recorded)
    (hhosts : m'.hosts.map Host.bundle = m.hosts.map Host.bundle)
    (hentries : m'.byBundle = m.byBundle)
    (hbegun : forall l start d, m'.loads l = .begun start ->
      start.dead = some d -> m.byBundle start.bundle = some d) :
    m'.Recorded where
  host := by
    rw [hhosts, hentries]
    exact h.host
  entry := by
    rw [hhosts, hentries]
    exact h.entry
  begun := by
    rw [hentries]
    exact hbegun

theorem Recorded.setLoad {m : SessionManager β} (h : m.Recorded) (l : Nat)
    {st : LoadState}
    (hst : forall start d, st = .begun start -> start.dead = some d ->
      m.byBundle start.bundle = some d) : (m.setLoad l st).Recorded := by
  let Seen : Nat -> LoadState -> Prop := fun _ st' =>
    forall start d, st' = .begun start -> start.dead = some d ->
      m.byBundle start.bundle = some d
  have hseen : forall l', Seen l' ((m.setLoad l st).loads l') :=
    (Function.forall_update_iff m.loads Seen).mpr
      ⟨hst, fun l' _ => h.begun l'⟩
  exact h.frame rfl rfl hseen

theorem Recorded.stepHost {m m' : SessionManager β} (h : m.Recorded) {i : Nat}
    {a : Action β} (hstep : m.stepHost i a = some m') : m'.Recorded := by
  rcases stepHost_eq hstep with ⟨hhosts, hentries, hloads⟩
  apply h.frame hhosts hentries
  rw [hloads]
  exact h.begun

theorem Recorded.spawn {m : SessionManager β} (h : m.Recorded) {bundle : Path}
    (hnew : m.byBundle bundle = none) : (m.spawn bundle).Recorded := by
  have hbundles : (m.spawn bundle).hosts.map Host.bundle =
      m.hosts.map Host.bundle ++ [bundle] := by
    simp [SessionManager.spawn]
  have hself : (m.spawn bundle).byBundle bundle = some m.hosts.length :=
    Function.update_self ..
  have hother : forall b, b ≠ bundle ->
      (m.spawn bundle).byBundle b = m.byBundle b :=
    fun b hne => Function.update_of_ne hne _ _
  have hold : forall b i, m.byBundle b = some i ->
      (m.spawn bundle).byBundle b = some i := by
    intro b i hb
    have hne : b ≠ bundle := by
      intro heq
      rw [heq, hnew] at hb
      cases hb
    rw [hother b hne, hb]
  constructor
  · intro b i hb
    rw [hbundles, getElem?_snoc]
    by_cases heq : b = bundle
    · rw [heq, hself] at hb
      cases hb
      exact .inr ⟨(List.length_map _).symm, heq.symm⟩
    · rw [hother b heq] at hb
      exact .inl (h.host b i hb)
  · intro i b hb
    rw [hbundles, getElem?_snoc] at hb
    rcases hb with hb | ⟨hi, rfl⟩
    · exact hold b i (h.entry i b hb)
    · rw [hself, hi, List.length_map]
  · intro l start d hload hdead
    exact hold start.bundle d (h.begun l start d hload hdead)

theorem deadSession_eq_some {m : SessionManager β} {bundle : Path} {d : Nat}
    (h : m.deadSession bundle = some d) : m.byBundle bundle = some d := by
  rw [deadSession, Option.filter_eq_some_iff] at h
  exact h.1

theorem route_target {m : SessionManager β} (h : m.Recorded) {l : Nat}
    {start : LoadStart} (hload : m.loads l = .begun start) {d : Nat}
    (hdead : start.dead = some d) :
    (m.route l start).loads l = .routed start d := by
  rw [route, h.begun l start d hload hdead]
  exact Function.update_self ..

theorem Recorded.route {m : SessionManager β} (h : m.Recorded) (l : Nat)
    (start : LoadStart) : (m.route l start).Recorded := by
  rw [SessionManager.route]
  cases hentry : m.byBundle start.bundle with
  | some i =>
      exact h.setLoad l (fun _ _ hst => nomatch hst)
  | none =>
      exact (h.spawn hentry).setLoad l (fun _ _ hst => nomatch hst)

section Runs

variable {loadBody : Path -> String -> β}

theorem Recorded.step {m m' : SessionManager β} {a : ManagerAction β}
    (h : m.Recorded) (hstep : SessionManager.step loadBody m a = some m') :
    m'.Recorded := by
  cases performed_of_step hstep with
  | @start l bundle stateBase64 hload =>
      apply h.setLoad l
      intro start d hst hdead
      cases hst
      exact deadSession_eq_some hdead
  | @route l start hload =>
      exact h.route l start
  | @spawnFails l start hload hentry =>
      exact h.setLoad l (fun _ _ hst => nomatch hst)
  | @send l i start t hload hhost =>
      exact (h.stepHost hhost).setLoad l (fun _ _ hst => nomatch hst)
  | inSession hhost =>
      exact h.stepHost hhost

theorem recorded_of_run {xs : List (ManagerAction β)} {m : SessionManager β}
    (hrun : Transition.run (step loadBody) new xs = some m) : m.Recorded :=
  Transition.run_invariant_of_steps (step loadBody) (fun _ _ => True)
    recorded_new (fun _ _ _ h _ hstep => h.step hstep)
    (fun _ _ _ _ _ => trivial) hrun

theorem Recorded.oneHost {m : SessionManager β} (h : m.Recorded) :
    m.OneHost := by
  intro i j host host' hi hj hbundle
  have hentry : forall k (x : Host β), m.hosts[k]? = some x ->
      m.byBundle x.bundle = some k := by
    intro k x hk
    apply h.entry
    rw [List.getElem?_map, hk]
    rfl
  have hsame := hentry j host' hj
  rw [<- hbundle, hentry i host hi] at hsame
  exact Option.some.inj hsame

/-- The session of every host is in a state that a session reaches on its
own. -/
def Hosted (m : SessionManager β) : Prop :=
  forall (i : Nat) (host : Host β), m.hosts[i]? = some host ->
    exists ys, Transition.run PluginSession.step PluginSession.spawned ys =
      some host.session

theorem Hosted.spawn {m : SessionManager β} (h : m.Hosted) (bundle : Path) :
    (m.spawn bundle).Hosted := by
  intro i host hhost
  rcases getElem?_snoc.mp hhost with hold | ⟨_, rfl⟩
  · exact h i host hold
  · exact ⟨[], rfl⟩

theorem Hosted.stepHost {m m' : SessionManager β} (h : m.Hosted) {i : Nat}
    {a : Action β} (hstep : m.stepHost i a = some m') : m'.Hosted := by
  rcases stepHost_eq_some hstep with ⟨host, session, hhost, hsession, rfl⟩
  rcases h i host hhost with ⟨ys, hrun⟩
  have hlonger : Transition.run PluginSession.step PluginSession.spawned
      (ys ++ [a]) = some session := by
    rw [Transition.run_snoc, hrun]
    exact hsession
  intro j host' hj
  rw [List.getElem?_set] at hj
  by_cases heq : i = j
  · rw [if_pos heq] at hj
    by_cases hlt : i < m.hosts.length
    · rw [if_pos hlt] at hj
      cases hj
      exact ⟨ys ++ [a], hlonger⟩
    · rw [if_neg hlt] at hj
      cases hj
  · rw [if_neg heq] at hj
    exact h j host' hj

theorem Hosted.step {m m' : SessionManager β} {a : ManagerAction β}
    (h : m.Hosted) (hstep : SessionManager.step loadBody m a = some m') :
    m'.Hosted := by
  cases performed_of_step hstep with
  | start bundle stateBase64 hload =>
      exact h
  | @route l start hload =>
      rw [SessionManager.route]
      cases m.byBundle start.bundle with
      | some i =>
          exact h
      | none =>
          exact h.spawn start.bundle
  | spawnFails hload hentry =>
      exact h
  | @send l i start t hload hhost =>
      have hstepped : t.Hosted := h.stepHost hhost
      exact hstepped
  | inSession hhost =>
      exact h.stepHost hhost

theorem hosted_of_run {xs : List (ManagerAction β)} {m : SessionManager β}
    (hrun : Transition.run (step loadBody) new xs = some m) : m.Hosted :=
  Transition.run_invariant_of_steps (step loadBody) (fun _ _ => True)
    (fun _ _ h => nomatch h) (fun _ _ _ h _ hstep => h.step hstep)
    (fun _ _ _ _ _ => trivial) hrun

/-- What holds of a session on its own holds of it under the manager. -/
theorem host_correlated {xs : List (ManagerAction β)} {m : SessionManager β}
    (hrun : Transition.run (step loadBody) new xs = some m) {i : Nat}
    {host : Host β} (hhost : m.hosts[i]? = some host)
    (hbound : host.session.started < 2 ^ 64) : host.session.Correlated := by
  rcases hosted_of_run hrun i host hhost with ⟨ys, hys⟩
  exact PluginSession.correlated_of_run hys hbound

/-- No load that has its host saw a session whose loop had returned. -/
def TargetsLive (m : SessionManager β) : Prop :=
  forall l start i, (m.loads l).target = some (start, i) -> start.dead = none

theorem TargetsLive.setLoad {m : SessionManager β} (h : m.TargetsLive) (l : Nat)
    {st : LoadState}
    (hst : forall start i, st.target = some (start, i) -> start.dead = none) :
    (m.setLoad l st).TargetsLive := by
  let Live : Nat -> LoadState -> Prop := fun _ st' =>
    forall start i, st'.target = some (start, i) -> start.dead = none
  exact (Function.forall_update_iff m.loads Live).mpr ⟨hst, fun l' _ => h l'⟩

theorem TargetsLive.stepHost {m m' : SessionManager β} (h : m.TargetsLive)
    {i : Nat} {a : Action β} (hstep : m.stepHost i a = some m') :
    m'.TargetsLive := by
  rcases stepHost_eq hstep with ⟨_, _, hloads⟩
  rw [TargetsLive, hloads]
  exact h

theorem TargetsLive.step {m m' : SessionManager β} {a : ManagerAction β}
    (h : m.TargetsLive) (ha : m.RoutesLive a)
    (hstep : SessionManager.step loadBody m a = some m') : m'.TargetsLive := by
  cases performed_of_step hstep with
  | @start l bundle stateBase64 hload =>
      exact h.setLoad l (fun _ _ htarget => nomatch htarget)
  | @route l start hload =>
      have hrouted : forall i start' i',
          (LoadState.routed start i).target = some (start', i') ->
          start'.dead = none := by
        intro i start' i' htarget
        cases htarget
        exact ha start hload
      rw [SessionManager.route]
      cases m.byBundle start.bundle with
      | some i =>
          exact h.setLoad l (hrouted i)
      | none =>
          have hspawn : (m.spawn start.bundle).TargetsLive := h
          exact hspawn.setLoad l (hrouted _)
  | @spawnFails l start hload hentry =>
      exact h.setLoad l (fun _ _ htarget => nomatch htarget)
  | @send l i start t hload hhost =>
      apply (h.stepHost hhost).setLoad l
      intro start' i' htarget
      cases htarget
      exact h l start i (by rw [hload]; rfl)
  | inSession hhost =>
      exact h.stepHost hhost

/-- Loads reach a new host after a crash, and each bundle has one host,
throughout a run, exactly when the lock is taken by no load that started after
the loop of its bundle's session had returned: such a load always goes to the
session that is gone. -/
theorem recovers_throughout_iff (loadBody : Path -> String -> β)
    (xs : List (ManagerAction β)) :
    (forall pre m, pre <+: xs ->
        Transition.run (step loadBody) new pre = some m ->
        m.Recovers ∧ m.OneHost) <->
      forall pre a m, pre ++ [a] <+: xs ->
        Transition.run (step loadBody) new pre = some m -> m.RoutesLive a := by
  constructor
  · intro h pre a m hpre hrun
    cases a with
    | route l =>
        intro start hload
        cases hdead : start.dead with
        | none =>
            rfl
        | some d =>
            have hnext : Transition.run (step loadBody) new (pre ++ [.route l]) =
                some (m.route l start) := by
              rw [Transition.run_snoc, hrun]
              simp [step, hload]
            have htarget := route_target (recorded_of_run hrun) hload hdead
            have hnew := (h _ _ hpre hnext).1 l start d d
              (by rw [htarget]; rfl) hdead
            exact absurd rfl hnew.2
    | _ =>
        trivial
  · intro h pre m hpre hrun
    refine ⟨?_, (recorded_of_run hrun).oneHost⟩
    have hlive : m.TargetsLive :=
      Transition.run_invariant_of_steps (step loadBody) RoutesLive
        (fun _ _ _ htarget => nomatch htarget)
        (fun _ _ _ ht ha hstep => ht.step ha hstep)
        (fun pre' a t hpre' => h pre' a t (hpre'.trans hpre)) hrun
    intro l start i d htarget hdead
    rw [hlive l start i htarget] at hdead
    cases hdead

end Runs

/-- The host of a bundle dies between two loads. -/
def crash : List (ManagerAction Unit) :=
  [.start 0 ["a.vst3"] "", .route 0, .inSession 0 .hostEnds, .inSession 0 .read,
    .start 1 ["a.vst3"] "", .route 1]

theorem crash_not_recovered :
    Not (forall (pre : List (ManagerAction Unit)) (m : SessionManager Unit),
      pre <+: crash ->
        Transition.run (step fun _ _ => ()) new pre = some m ->
        m.Recovers ∧ m.OneHost) := by
  intro h
  have hrecovers := (h crash _ (List.prefix_refl crash) rfl).1
  have hnew := hrecovers 1 _ 0 0 rfl rfl
  exact absurd rfl hnew.2

end SessionManager

end Session
end OpenMk3
