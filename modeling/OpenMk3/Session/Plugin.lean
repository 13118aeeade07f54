import Mathlib.Algebra.Group.Nat.Defs
import Mathlib.Logic.Function.Basic
import OpenMk3.Library.Transition

/-!
# Plugin sessions

One `PluginSession` with its child process: any number of concurrent `call`
invocations, the two pipes, and the `read_loop` task.  A step is one of the
points at which the tasks can interleave: `call` allocates its id, inserts its
sender under the lock, writes its line and awaits the receiver; the loop reads
a line and then, under the lock, hands the envelope on.
-/

namespace OpenMk3
namespace Session

open Library

structure Envelope (β : Type) where
  id : UInt64
  kind : String
  body : β

/-- A line on the child's stdout, as `serde_json::from_str` sees it. -/
inductive Line (β : Type) where
  | envelope (env : Envelope β)
  | nonJson

inductive CallError where
  | write
  -- "pluginhost closed before replying"
  | closed

/-- Where one invocation of `call` stands. -/
inductive CallState (β : Type) where
  | ready
  | allocated (request : Envelope β)
  | inserted (request : Envelope β)
  | waiting (request : Envelope β)
  | returned (request : Envelope β) (result : Except CallError (Envelope β))

/-- Where `read_loop` stands; `holding` is between the parse of a line and the
send that hands its envelope on. -/
inductive Reader (β : Type) where
  | idle
  | holding (line : Nat) (env : Envelope β)
  | stopped

/-- A session and what is on its pipes.  The senders of `pending` are named by
the call that holds the receiver, and `mail` keeps what was sent to a call with
the number of the host line it came from.  `stdout` keeps every line the host
has written; `readCount` of them have been read. -/
structure PluginSession (β : Type) where
  nextId : UInt64
  started : Nat
  calls : Nat -> CallState β
  pending : UInt64 -> Option Nat
  mail : Nat -> Option (Nat × Envelope β)
  stdin : List (Envelope β)
  received : List UInt64
  stdout : List (Line β)
  hostOpen : Bool
  readCount : Nat
  reader : Reader β
  events : List (Envelope β)

inductive Action (β : Type) where
  | start (call : Nat) (kind : String) (body : β)
  | insert (call : Nat)
  | write (call : Nat)
  | writeFails (call : Nat)
  | resume (call : Nat)
  | hostReceives
  | hostWrites (line : Line β)
  | hostEnds
  | read
  | readFails
  | dispatch

variable {β : Type}

namespace CallState

def request : CallState β -> Option (Envelope β)
  | ready => none
  | allocated req => some req
  | inserted req => some req
  | waiting req => some req
  | returned req _ => some req

/-- Whether the call still holds the receiver of its inserted sender. -/
def receiving : CallState β -> Bool
  | inserted _ => true
  | waiting _ => true
  | _ => false

end CallState

namespace PluginSession

/-- The session `spawn` returns. -/
def spawned : PluginSession β :=
  { nextId := 1
    started := 0
    calls := fun _ => .ready
    pending := fun _ => none
    mail := fun _ => none
    stdin := []
    received := []
    stdout := []
    hostOpen := true
    readCount := 0
    reader := .idle
    events := [] }

def allocate (s : PluginSession β) (c : Nat) (kind : String) (body : β) :
    PluginSession β :=
  { s with
    nextId := s.nextId + 1
    started := s.started + 1
    calls := Function.update s.calls c
      (.allocated { id := s.nextId, kind := kind, body := body }) }

def insert (s : PluginSession β) (c : Nat) (req : Envelope β) :
    PluginSession β :=
  { s with
    pending := Function.update s.pending req.id (some c)
    calls := Function.update s.calls c (.inserted req) }

def write (s : PluginSession β) (c : Nat) (req : Envelope β) :
    PluginSession β :=
  { s with
    stdin := s.stdin ++ [req]
    calls := Function.update s.calls c (.waiting req) }

/-- `call` returns; an entry it left in `pending` stays there. -/
def finish (s : PluginSession β) (c : Nat) (req : Envelope β)
    (result : Except CallError (Envelope β)) : PluginSession β :=
  { s with calls := Function.update s.calls c (.returned req result) }

/-- What `rx.await` yields: the envelope sent, an error once the sender is
gone, and nothing while `pending` holds the sender. -/
def awaited (s : PluginSession β) (c : Nat) (req : Envelope β) :
    Option (Except CallError (Envelope β)) :=
  match s.mail c with
  | some (_, env) => some (.ok env)
  | none =>
      if s.pending req.id = some c then none
      else some (.error .closed)

def hostReceive (s : PluginSession β) (req : Envelope β)
    (rest : List (Envelope β)) : PluginSession β :=
  { s with stdin := rest, received := s.received ++ [req.id] }

def hostWrite (s : PluginSession β) (line : Line β) : PluginSession β :=
  { s with stdout := s.stdout ++ [line] }

/-- Take one line; a line that does not parse is logged and dropped. -/
def readLine (s : PluginSession β) (line : Line β) : PluginSession β :=
  { s with
    readCount := s.readCount + 1
    reader :=
      match line with
      | .envelope env => .holding s.readCount env
      | .nonJson => .idle }

def stop (s : PluginSession β) : PluginSession β :=
  { s with reader := .stopped }

/-- Hand a parsed envelope to `events_tx` or to the sender pending under its
id; an id without a sender is ignored. -/
def dispatch (s : PluginSession β) (n : Nat) (env : Envelope β) :
    PluginSession β :=
  if env.id = 0 then
    { s with reader := .idle, events := s.events ++ [env] }
  else
    match s.pending env.id with
    | none => { s with reader := .idle }
    | some c =>
        -- A send to a call that gave up is ignored; its entry is gone too.
        { s with
          reader := .idle
          pending := Function.update s.pending env.id none
          mail :=
            if (s.calls c).receiving then
              Function.update s.mail c (some (n, env))
            else s.mail }

section Dispatch

variable (s : PluginSession β) (n : Nat) (env : Envelope β)

/-- Whatever becomes of the envelope, the calls and the pipes stay. -/
theorem dispatch_eq : s.dispatch n env =
    { s with
      reader := .idle
      pending := (s.dispatch n env).pending
      mail := (s.dispatch n env).mail
      events := (s.dispatch n env).events } := by
  unfold dispatch
  by_cases hid : env.id = 0
  · rw [if_pos hid]
  · rw [if_neg hid]
    cases s.pending env.id <;> rfl

@[simp] theorem dispatch_nextId : (s.dispatch n env).nextId = s.nextId := by
  rw [dispatch_eq]

@[simp] theorem dispatch_started : (s.dispatch n env).started = s.started := by
  rw [dispatch_eq]

@[simp] theorem dispatch_calls : (s.dispatch n env).calls = s.calls := by
  rw [dispatch_eq]

@[simp] theorem dispatch_stdin : (s.dispatch n env).stdin = s.stdin := by
  rw [dispatch_eq]

@[simp] theorem dispatch_received : (s.dispatch n env).received = s.received := by
  rw [dispatch_eq]

@[simp] theorem dispatch_stdout : (s.dispatch n env).stdout = s.stdout := by
  rw [dispatch_eq]

@[simp] theorem dispatch_readCount :
    (s.dispatch n env).readCount = s.readCount := by
  rw [dispatch_eq]

@[simp] theorem dispatch_reader : (s.dispatch n env).reader = .idle := by
  rw [dispatch_eq]

variable {s env}

theorem dispatch_event (h : env.id = 0) :
    s.dispatch n env =
      { s with reader := .idle, events := s.events ++ [env] } :=
  if_pos h

theorem dispatch_unknown (h : env.id ≠ 0) (hpending : s.pending env.id = none) :
    s.dispatch n env = { s with reader := .idle } := by
  rw [dispatch, if_neg h, hpending]

theorem dispatch_pending {c : Nat} (h : env.id ≠ 0)
    (hpending : s.pending env.id = some c) :
    s.dispatch n env =
      { s with
        reader := .idle
        pending := Function.update s.pending env.id none
        mail :=
          if (s.calls c).receiving then
            Function.update s.mail c (some (n, env))
          else s.mail } := by
  rw [dispatch, if_neg h, hpending]

theorem dispatch_pending_of_ne {id : UInt64} (h : id ≠ env.id) :
    (s.dispatch n env).pending id = s.pending id := by
  by_cases hid : env.id = 0
  · rw [dispatch_event n hid]
  · cases hpending : s.pending env.id with
    | none =>
        rw [dispatch_unknown n hid hpending]
    | some c =>
        rw [dispatch_pending n hid hpending]
        exact Function.update_of_ne h _ _

theorem dispatch_pending_self (h : env.id ≠ 0) :
    (s.dispatch n env).pending env.id = none := by
  cases hpending : s.pending env.id with
  | none =>
      rw [dispatch_unknown n h hpending]
      exact hpending
  | some c =>
      rw [dispatch_pending n h hpending]
      exact Function.update_self ..

/-- Only the call that owns the sender under the id can be sent anything. -/
theorem dispatch_mail_of_ne {c : Nat} (h : s.pending env.id ≠ some c) :
    (s.dispatch n env).mail c = s.mail c := by
  by_cases hid : env.id = 0
  · rw [dispatch_event n hid]
  · cases hpending : s.pending env.id with
    | none =>
        rw [dispatch_unknown n hid hpending]
    | some owner =>
        have hne : c ≠ owner := by
          intro heq
          exact h (heq ▸ hpending)
        rw [dispatch_pending n hid hpending]
        by_cases hrecv : (s.calls owner).receiving = true
        · simp only [if_pos hrecv, Function.update_of_ne hne]
        · simp only [if_neg hrecv]

theorem dispatch_mail_of_receiving {c : Nat} (h : env.id ≠ 0)
    (hpending : s.pending env.id = some c)
    (hrecv : (s.calls c).receiving = true) :
    (s.dispatch n env).mail c = some (n, env) := by
  rw [dispatch_pending n h hpending]
  simp only [if_pos hrecv, Function.update_self]

theorem dispatch_mail_of_not_receiving {c : Nat} (h : env.id ≠ 0)
    (hpending : s.pending env.id = some c)
    (hrecv : (s.calls c).receiving = false) :
    (s.dispatch n env).mail = s.mail := by
  rw [dispatch_pending n h hpending, hrecv]
  rfl

end Dispatch

def step : Transition (PluginSession β) (Action β)
  | s, .start c kind body =>
      match s.calls c with
      | .ready => some (s.allocate c kind body)
      | _ => none
  | s, .insert c =>
      match s.calls c with
      | .allocated req => some (s.insert c req)
      | _ => none
  | s, .write c =>
      match s.calls c with
      | .inserted req => some (s.write c req)
      | _ => none
  | s, .writeFails c =>
      match s.calls c with
      | .inserted req => some (s.finish c req (.error .write))
      | _ => none
  | s, .resume c =>
      match s.calls c with
      | .waiting req => (s.awaited c req).map (s.finish c req)
      | _ => none
  | s, .hostReceives =>
      match s.stdin with
      | [] => none
      | req :: rest => some (s.hostReceive req rest)
  | s, .hostWrites line =>
      if s.hostOpen then some (s.hostWrite line) else none
  | s, .hostEnds => some { s with hostOpen := false }
  | s, .read =>
      match s.reader with
      | .idle =>
          match s.stdout[s.readCount]? with
          | some line => some (s.readLine line)
          | none => if s.hostOpen then none else some s.stop
      | _ => none
  | s, .readFails =>
      match s.reader with
      | .idle => some s.stop
      | _ => none
  | s, .dispatch =>
      match s.reader with
      | .holding n env => some (s.dispatch n env)
      | _ => none

/-- What each action does when it is enabled. -/
inductive Performed (s : PluginSession β) :
    Action β -> PluginSession β -> Prop where
  | start {c : Nat} (kind : String) (body : β) (hcall : s.calls c = .ready) :
      Performed s (.start c kind body) (s.allocate c kind body)
  | insert {c : Nat} {req : Envelope β} (hcall : s.calls c = .allocated req) :
      Performed s (.insert c) (s.insert c req)
  | write {c : Nat} {req : Envelope β} (hcall : s.calls c = .inserted req) :
      Performed s (.write c) (s.write c req)
  | writeFails {c : Nat} {req : Envelope β} (hcall : s.calls c = .inserted req) :
      Performed s (.writeFails c) (s.finish c req (.error .write))
  | resume {c : Nat} {req : Envelope β} {result : Except CallError (Envelope β)}
      (hcall : s.calls c = .waiting req) (hresult : s.awaited c req = some result) :
      Performed s (.resume c) (s.finish c req result)
  | hostReceives {req : Envelope β} {rest : List (Envelope β)}
      (hstdin : s.stdin = req :: rest) :
      Performed s .hostReceives (s.hostReceive req rest)
  | hostWrites (line : Line β) (hopen : s.hostOpen = true) :
      Performed s (.hostWrites line) (s.hostWrite line)
  | hostEnds : Performed s .hostEnds { s with hostOpen := false }
  | readLine {line : Line β} (hreader : s.reader = .idle)
      (hline : s.stdout[s.readCount]? = some line) :
      Performed s .read (s.readLine line)
  | readEnd (hreader : s.reader = .idle)
      (hline : s.stdout[s.readCount]? = none) (hclosed : s.hostOpen = false) :
      Performed s .read s.stop
  | readFails (hreader : s.reader = .idle) : Performed s .readFails s.stop
  | dispatch {n : Nat} {env : Envelope β} (hreader : s.reader = .holding n env) :
      Performed s .dispatch (s.dispatch n env)

theorem performed_of_step {s s' : PluginSession β} {a : Action β}
    (h : step s a = some s') : Performed s a s' := by
  cases a with
  | start c kind body =>
      cases hcall : s.calls c <;> simp only [step, hcall] at h
      all_goals cases h
      exact .start kind body hcall
  | insert c =>
      cases hcall : s.calls c <;> simp only [step, hcall] at h
      all_goals cases h
      exact .insert hcall
  | write c =>
      cases hcall : s.calls c <;> simp only [step, hcall] at h
      all_goals cases h
      exact .write hcall
  | writeFails c =>
      cases hcall : s.calls c <;> simp only [step, hcall] at h
      all_goals cases h
      exact .writeFails hcall
  | resume c =>
      cases hcall : s.calls c with
      | waiting req =>
          simp only [step, hcall] at h
          rcases Option.map_eq_some_iff.mp h with ⟨result, hresult, rfl⟩
          exact .resume hcall hresult
      | _ =>
          simp only [step, hcall] at h
          cases h
  | hostReceives =>
      cases hstdin : s.stdin <;> simp only [step, hstdin] at h
      all_goals cases h
      exact .hostReceives hstdin
  | hostWrites line =>
      cases hopen : s.hostOpen <;> simp [step, hopen] at h
      subst h
      exact .hostWrites line hopen
  | hostEnds =>
      cases h
      exact .hostEnds
  | read =>
      cases hreader : s.reader with
      | idle =>
          cases hline : s.stdout[s.readCount]? with
          | some line =>
              simp only [step, hreader, hline] at h
              cases h
              exact .readLine hreader hline
          | none =>
              cases hopen : s.hostOpen <;>
                simp [step, hreader, hline, hopen] at h
              subst h
              exact .readEnd hreader hline hopen
      | _ =>
          simp only [step, hreader] at h
          cases h
  | readFails =>
      cases hreader : s.reader <;> simp only [step, hreader] at h
      all_goals cases h
      exact .readFails hreader
  | dispatch =>
      cases hreader : s.reader <;> simp only [step, hreader] at h
      all_goals cases h
      exact .dispatch hreader

end PluginSession

end Session
end OpenMk3
