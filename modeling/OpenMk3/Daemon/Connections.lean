import Mathlib.Data.List.Infix
import Mathlib.Data.List.Pairwise
import Mathlib.Logic.Function.Basic
import OpenMk3.Daemon.Uds
import OpenMk3.Library.Transition

/-!
# The connections and the op pump

The tasks that `serve` spawns, one for each connection, and the loop of `main`
that takes their operations from one channel.  A request goes into the channel
with the sender of a channel of its own, on which its reply comes back.  What the
handler replies is left open; it has one operation at a time.
-/

namespace OpenMk3
namespace Daemon

open Library

/-- A request of a connection. -/
structure Request where
  conn : Nat
  number : Nat
deriving DecidableEq

/-- Where the task of a connection stands: in `next_line`, in `h.send`, in
`rx.recv`, or past its loop. -/
inductive ConnTask where
  | reading
  | sending (n : Nat) (op : Op)
  | receiving (n : Nat)
  | ended

/-- An operation that the pump is done with. -/
structure Handled where
  request : Request
  op : Op
  reply : Reply

/-- `lines` are those that the task of a connection has read, and `replies` what
has been sent on the channel of a request. -/
structure Connections where
  accepted : Nat
  lines : Nat -> List String
  written : Nat -> List UInt8
  task : Nat -> ConnTask
  queue : List (Request × Op)
  pump : Option (Request × Op)
  stopped : Bool
  replies : Request -> Option Reply
  handled : List Handled

inductive ConnAct where
  | accept
  | readLine (c : Nat) (line : String)
  -- The end of the stream, or a line that is no text.
  | readEnd (c : Nat)
  | send (c : Nat)
  | recv (c : Nat)
  | take
  | finish (reply : Reply)
  -- SIGINT or SIGTERM, which `select!` sees between two operations.
  | signal

def opChannel : Nat := 64

namespace Connections

variable (serde : Serde)

def start : Connections where
  accepted := 0
  lines _ := []
  written _ := []
  task _ := .ended
  queue := []
  pump := none
  stopped := false
  replies _ := none
  handled := []

variable (s : Connections)

def setTask (c : Nat) (t : ConnTask) : Connections :=
  { s with task := Function.update s.task c t }

def write (c : Nat) (bytes : List UInt8) : Connections :=
  { s with
    written := Function.update s.written c (s.written c ++ bytes)
    task := Function.update s.task c .reading }

def addLine (c : Nat) (line : String) : Connections :=
  { s with lines := Function.update s.lines c (s.lines c ++ [line]) }

/-- The task has a line; one that is no operation is answered at once. -/
def read (c : Nat) (line : String) : Connections :=
  match serde.fromStr line with
  | .error e => (s.addLine c line).write c (malformed e)
  | .ok op => (s.addLine c line).setTask c (.sending (s.lines c).length op)

def enqueue (c n : Nat) (op : Op) : Connections :=
  { s with
    queue := s.queue ++ [(⟨c, n⟩, op)]
    task := Function.update s.task c (.receiving n) }

/-- Somebody still holds the sender for the reply. -/
def Pending (r : Request) : Prop :=
  r ∈ (s.pump.toList ++ s.queue).map Prod.fst

instance (r : Request) : Decidable (s.Pending r) :=
  inferInstanceAs (Decidable (r ∈ (s.pump.toList ++ s.queue).map Prod.fst))

/-- The line for a reply. -/
def replyLine (reply : Reply) : List UInt8 :=
  (serde.toString reply).getD [] ++ [Ascii.newline]

def finished (r : Request) (op : Op) (reply : Reply) : Connections :=
  { s with
    pump := none
    replies := Function.update s.replies r (some reply)
    handled := s.handled ++ [{ request := r, op := op, reply := reply }] }

def step : Transition Connections ConnAct
  | s, .accept =>
      some { s.setTask s.accepted .reading with accepted := s.accepted + 1 }
  | s, .readLine c line =>
      match s.task c with
      | .reading => some (s.read serde c line)
      | _ => none
  | s, .readEnd c =>
      match s.task c with
      | .reading => some (s.setTask c .ended)
      | _ => none
  | s, .send c =>
      match s.task c with
      | .sending n op =>
          -- A channel whose receiver is gone drops the operation and its sender.
          if s.stopped then some (s.setTask c (.receiving n))
          else if s.queue.length < opChannel then some (s.enqueue c n op)
          else none
      | _ => none
  | s, .recv c =>
      match s.task c with
      | .receiving n =>
          match s.replies ⟨c, n⟩ with
          | some reply => some (s.write c (replyLine serde reply))
          | none =>
              if s.Pending ⟨c, n⟩ then none
              else some (s.write c (replyLine serde (errorReply "no reply")))
      | _ => none
  | s, .take =>
      match s.pump, s.queue with
      | none, next :: rest => some { s with pump := some next, queue := rest }
      | _, _ => none
  | s, .finish reply =>
      s.pump.map fun (r, op) => s.finished r op reply
  | s, .signal =>
      match s.pump, s.stopped with
      | none, false => some { s with stopped := true, queue := [] }
      | _, _ => none

/-- What each action does when it is enabled. -/
inductive Performed (s : Connections) : ConnAct -> Connections -> Prop where
  | accept :
      Performed s .accept
        { s.setTask s.accepted .reading with accepted := s.accepted + 1 }
  | malformed {c : Nat} {line e : String} (htask : s.task c = .reading)
      (herror : serde.fromStr line = .error e) :
      Performed s (.readLine c line) ((s.addLine c line).write c (malformed e))
  | ask {c : Nat} {line : String} {op : Op} (htask : s.task c = .reading)
      (hop : serde.fromStr line = .ok op) :
      Performed s (.readLine c line)
        ((s.addLine c line).setTask c (.sending (s.lines c).length op))
  | readEnd {c : Nat} (htask : s.task c = .reading) :
      Performed s (.readEnd c) (s.setTask c .ended)
  | drop {c n : Nat} {op : Op} (htask : s.task c = .sending n op)
      (hstopped : s.stopped = true) :
      Performed s (.send c) (s.setTask c (.receiving n))
  | send {c n : Nat} {op : Op} (htask : s.task c = .sending n op)
      (hstopped : s.stopped = false) (hroom : s.queue.length < opChannel) :
      Performed s (.send c) (s.enqueue c n op)
  | recv {c n : Nat} {reply : Reply} (htask : s.task c = .receiving n)
      (hreply : s.replies ⟨c, n⟩ = some reply) :
      Performed s (.recv c) (s.write c (replyLine serde reply))
  | recvClosed {c n : Nat} (htask : s.task c = .receiving n)
      (hreply : s.replies ⟨c, n⟩ = none) (hpending : Not (s.Pending ⟨c, n⟩)) :
      Performed s (.recv c) (s.write c (replyLine serde (errorReply "no reply")))
  | take {next : Request × Op} {rest : List (Request × Op)} (hpump : s.pump = none)
      (hqueue : s.queue = next :: rest) :
      Performed s .take { s with pump := some next, queue := rest }
  | finish {r : Request} {op : Op} (reply : Reply) (hpump : s.pump = some (r, op)) :
      Performed s (.finish reply) (s.finished r op reply)
  | signal (hpump : s.pump = none) (hstopped : s.stopped = false) :
      Performed s .signal { s with stopped := true, queue := [] }

theorem performed_of_step {s s' : Connections} {a : ConnAct}
    (h : step serde s a = some s') : Performed serde s a s' := by
  cases a with
  | accept =>
      cases h
      exact .accept
  | readLine c line =>
      cases htask : s.task c <;> simp only [step, htask] at h
      all_goals cases h
      unfold read
      cases hparse : serde.fromStr line with
      | error e => exact .malformed htask hparse
      | ok op => exact .ask htask hparse
  | readEnd c =>
      cases htask : s.task c <;> simp only [step, htask] at h
      all_goals cases h
      exact .readEnd htask
  | send c =>
      cases htask : s.task c with
      | sending n op =>
          simp only [step, htask] at h
          split at h
          · next hstopped =>
              cases h
              exact .drop htask hstopped
          · next hstopped =>
              split at h
              · next hroom =>
                  cases h
                  exact .send htask (eq_false_of_ne_true hstopped) hroom
              · cases h
      | _ =>
          simp only [step, htask] at h
          cases h
  | recv c =>
      cases htask : s.task c with
      | receiving n =>
          simp only [step, htask] at h
          cases hreply : s.replies ⟨c, n⟩ with
          | some reply =>
              simp only [hreply] at h
              cases h
              exact .recv htask hreply
          | none =>
              simp only [hreply] at h
              split at h
              · cases h
              · next hpending =>
                  cases h
                  exact .recvClosed htask hreply hpending
      | _ =>
          simp only [step, htask] at h
          cases h
  | take =>
      cases hpump : s.pump <;> cases hqueue : s.queue <;>
        simp only [step, hpump, hqueue] at h
      all_goals cases h
      exact .take hpump hqueue
  | finish reply =>
      rcases Option.map_eq_some_iff.mp h with ⟨⟨r, op⟩, hpump, rfl⟩
      exact .finish reply hpump
  | signal =>
      simp only [step] at h
      split at h
      · next hpump hstopped =>
          cases h
          exact .signal hpump hstopped
      · cases h

/-!
## Requests on their way
-/

/-- The request is a line that says the operation. -/
def Asked (r : Request) (op : Op) : Prop :=
  exists line, (s.lines r.conn)[r.number]? = some line ∧ serde.fromStr line = .ok op

/-- The lines that have been answered; the task works on the last line alone. -/
def answered (c : Nat) : List String :=
  match s.task c with
  | .sending n _ => (s.lines c).take n
  | .receiving n => (s.lines c).take n
  | _ => s.lines c

/-- The operations that were sent, those that are done first. -/
def ops : List (Request × Op) :=
  s.handled.map (fun h => (h.request, h.op)) ++ (s.pump.toList ++ s.queue)

/-- Their requests. -/
def order : List Request :=
  s.ops.map Prod.fst

/-- Every task works on the last line it has read. -/
structure Tasks : Prop where
  unknown : forall c, s.accepted ≤ c -> s.task c = .ended ∧ s.lines c = []
  sending : forall c n op, s.task c = .sending n op ->
    n + 1 = (s.lines c).length ∧ s.Asked serde ⟨c, n⟩ op
  receiving : forall c n, s.task c = .receiving n ->
    n + 1 = (s.lines c).length ∧ exists op, s.Asked serde ⟨c, n⟩ op

variable {serde} {s} {s' : Connections} {a : ConnAct}

theorem tasks_start : start.Tasks serde where
  unknown _ _ := ⟨rfl, rfl⟩
  sending := nofun
  receiving := nofun

theorem lines_addLine (c d : Nat) (line : String) :
    s.lines d <+: (s.addLine c line).lines d := by
  unfold addLine
  rcases eq_or_ne d c with rfl | hd
  · refine ⟨[line], ?_⟩
    simp
  · refine ⟨[], ?_⟩
    simp [hd]

theorem Asked.of_prefix {r : Request} {op : Op} (h : s.Asked serde r op)
    (hlines : s.lines r.conn <+: s'.lines r.conn) : s'.Asked serde r op := by
  rcases h with ⟨line, hline, hop⟩
  rcases List.getElem?_eq_some_iff.mp hline with ⟨hlt, -⟩
  rcases hlines with ⟨more, hmore⟩
  refine ⟨line, ?_, hop⟩
  exact hmore ▸ (List.getElem?_append_left hlt).trans hline

theorem Asked.of_lt {r : Request} {op : Op} (h : s'.Asked serde r op)
    (hlt : r.number < (s.lines r.conn).length)
    (hlines : s.lines r.conn <+: s'.lines r.conn) : s.Asked serde r op := by
  rcases h with ⟨line, hline, hop⟩
  rcases hlines with ⟨more, hmore⟩
  refine ⟨line, ?_, hop⟩
  exact (List.getElem?_append_left hlt).symm.trans (hmore ▸ hline)

theorem Asked.lt {r : Request} {op : Op} (h : s.Asked serde r op) :
    r.number < (s.lines r.conn).length := by
  rcases h with ⟨line, hline, -⟩
  exact (List.getElem?_eq_some_iff.mp hline).choose

/-- A line is the last of its connection when it has been read. -/
theorem asked_addLine {c : Nat} {line : String} {op : Op}
    (hop : serde.fromStr line = .ok op) :
    (s.addLine c line).Asked serde ⟨c, (s.lines c).length⟩ op := by
  refine ⟨line, ?_, hop⟩
  unfold addLine
  simp

theorem Tasks.lt_accepted (h : s.Tasks serde) {c : Nat} {t : ConnTask}
    (htask : s.task c = t) (ht : t ≠ .ended) : c < s.accepted :=
  Nat.lt_of_not_le fun hle => ht (htask ▸ (h.unknown c hle).left)

theorem Tasks.addLine (h : s.Tasks serde) {c : Nat} (line : String)
    (htask : s.task c = .reading) : (s.addLine c line).Tasks serde where
  unknown d hd := by
    have hne : d ≠ c := by
      rintro rfl
      rw [(h.unknown d hd).left] at htask
      cases htask
    refine ⟨(h.unknown d hd).left, ?_⟩
    exact (Function.update_of_ne hne _ _).trans (h.unknown d hd).right
  sending d n op hd := by
    have hne : d ≠ c := by
      rintro rfl
      cases htask.symm.trans hd
    rcases h.sending d n op hd with ⟨hlength, hop⟩
    have hlines : (s.addLine c line).lines d = s.lines d := Function.update_of_ne hne _ _
    exact ⟨hlines ▸ hlength, hop.of_prefix (lines_addLine c d line)⟩
  receiving d n hd := by
    have hne : d ≠ c := by
      rintro rfl
      cases htask.symm.trans hd
    rcases h.receiving d n hd with ⟨hlength, op, hop⟩
    have hlines : (s.addLine c line).lines d = s.lines d := Function.update_of_ne hne _ _
    exact ⟨hlines ▸ hlength, op, hop.of_prefix (lines_addLine c d line)⟩

theorem Tasks.setTask (h : s.Tasks serde) {c : Nat} {t : ConnTask} (hc : c < s.accepted)
    (hsending : forall n op, t = .sending n op ->
      n + 1 = (s.lines c).length ∧ s.Asked serde ⟨c, n⟩ op)
    (hreceiving : forall n, t = .receiving n ->
      n + 1 = (s.lines c).length ∧ exists op, s.Asked serde ⟨c, n⟩ op) :
    (s.setTask c t).Tasks serde where
  unknown d hd := by
    have hne : d ≠ c := fun heq => Nat.not_lt.mpr hd (heq ▸ hc)
    refine ⟨?_, (h.unknown d hd).right⟩
    exact (Function.update_of_ne hne _ _).trans (h.unknown d hd).left
  sending d n op hd := by
    rcases eq_or_ne d c with rfl | hne
    · exact hsending n op ((Function.update_self ..).symm.trans hd)
    · exact h.sending d n op ((Function.update_of_ne hne _ _).symm.trans hd)
  receiving d n hd := by
    rcases eq_or_ne d c with rfl | hne
    · exact hreceiving n ((Function.update_self ..).symm.trans hd)
    · exact h.receiving d n ((Function.update_of_ne hne _ _).symm.trans hd)

theorem Tasks.setFree (h : s.Tasks serde) {c : Nat} {t : ConnTask} (hc : c < s.accepted)
    (ht : t = .reading ∨ t = .ended) : (s.setTask c t).Tasks serde := by
  refine h.setTask hc ?_ ?_
  · intro n op heq
    rcases ht with rfl | rfl <;> cases heq
  · intro n heq
    rcases ht with rfl | rfl <;> cases heq

/-- The tasks do not depend on what is in the channels. -/
theorem Tasks.congr (h : s.Tasks serde) (haccepted : s'.accepted = s.accepted)
    (hlines : s'.lines = s.lines) (htask : s'.task = s.task) : s'.Tasks serde := by
  have hasked : forall {r : Request} {op : Op}, s.Asked serde r op ->
      s'.Asked serde r op := fun hop => hop.of_prefix (hlines ▸ List.prefix_rfl)
  refine ⟨?_, ?_, ?_⟩
  · intro c hc
    rw [htask, hlines]
    exact h.unknown c (haccepted ▸ hc)
  · intro c n op hc
    rw [hlines]
    exact (h.sending c n op (htask ▸ hc)).imp_right hasked
  · intro c n hc
    rw [hlines]
    rcases h.receiving c n (htask ▸ hc) with ⟨hlength, op, hop⟩
    exact ⟨hlength, op, hasked hop⟩

theorem Tasks.receive (h : s.Tasks serde) {c n : Nat} {op : Op}
    (htask : s.task c = .sending n op) (hc : c < s.accepted) :
    (s.setTask c (.receiving n)).Tasks serde := by
  refine h.setTask hc ?_ ?_
  · intro m op' heq
    cases heq
  · intro m heq
    cases heq
    exact (h.sending c n op htask).imp_right fun hop => ⟨op, hop⟩

theorem Tasks.step (h : s.Tasks serde) (hstep : Performed serde s a s') :
    s'.Tasks serde := by
  cases hstep with
  | accept =>
      have hmore : { s with accepted := s.accepted + 1 }.Tasks serde := by
        refine ⟨?_, h.sending, h.receiving⟩
        intro c hc
        exact h.unknown c (Nat.le_of_succ_le hc)
      exact hmore.setFree (Nat.lt_succ_self _) (.inl rfl)
  | malformed htask herror =>
      exact ((h.addLine _ htask).setFree (h.lt_accepted htask nofun) (.inl rfl)).congr
        rfl rfl rfl
  | @ask c line op htask hop =>
      refine (h.addLine _ htask).setTask (h.lt_accepted htask nofun) ?_ ?_
      · intro n op' heq
        cases heq
        refine ⟨?_, asked_addLine hop⟩
        unfold Connections.addLine
        simp
      · intro n heq
        cases heq
  | readEnd htask =>
      exact h.setFree (h.lt_accepted htask nofun) (.inr rfl)
  | drop htask hstopped =>
      exact h.receive htask (h.lt_accepted htask nofun)
  | send htask hstopped hroom =>
      exact (h.receive htask (h.lt_accepted htask nofun)).congr rfl rfl rfl
  | recv htask hreply =>
      exact (h.setFree (h.lt_accepted htask nofun) (.inl rfl)).congr rfl rfl rfl
  | recvClosed htask hreply hpending =>
      exact (h.setFree (h.lt_accepted htask nofun) (.inl rfl)).congr rfl rfl rfl
  | take hpump hqueue => exact h.congr rfl rfl rfl
  | finish reply hpump => exact h.congr rfl rfl rfl
  | signal hpump hstopped => exact h.congr rfl rfl rfl

/-!
## The order of the operations
-/

theorem answered_congr {c : Nat} (htask : s'.task c = s.task c)
    (hlines : s'.lines c = s.lines c) : s'.answered c = s.answered c := by
  unfold answered
  rw [htask, hlines]

theorem answered_reading {c : Nat} (htask : s.task c = .reading) :
    s.answered c = s.lines c := by
  unfold answered
  rw [htask]

theorem answered_receiving {c n : Nat} (htask : s.task c = .receiving n) :
    s.answered c = (s.lines c).take n := by
  unfold answered
  rw [htask]

/-- A request in the channel or with the pump is the one its task waits for, and
those of one connection were sent in order. -/
structure Ordered (serde : Serde) (s : Connections) : Prop where
  pending : forall r, s.Pending r -> s.task r.conn = .receiving r.number
  asked : forall x, x ∈ s.ops -> s.Asked serde x.1 x.2
  past : forall r, r ∈ s.order ->
    r.number < (s.answered r.conn).length ∨ s.task r.conn = .receiving r.number
  sorted : s.order.Pairwise fun r r' => r.conn = r'.conn -> r.number < r'.number

theorem ordered_start : start.Ordered serde where
  pending := nofun
  asked := nofun
  past := nofun
  sorted := List.Pairwise.nil

/-- The task of a connection moves; nothing is sent or taken. -/
theorem Ordered.move (h : s.Ordered serde) {c : Nat}
    (hops : s'.ops = s.ops) (hpending : forall r, s'.Pending r -> s.Pending r)
    (hlines : forall d, s.lines d <+: s'.lines d)
    (hother : forall d, d ≠ c -> s'.task d = s.task d ∧ s'.lines d = s.lines d)
    (hfree : forall n, Not (s.Pending ⟨c, n⟩))
    (hlength : (s.answered c).length ≤ (s'.answered c).length)
    (hlast : forall n, s.task c = .receiving n -> n < (s'.answered c).length) :
    s'.Ordered serde where
  pending r hr := by
    have hne : r.conn ≠ c := by
      rintro rfl
      exact hfree r.number (hpending r hr)
    rw [(hother r.conn hne).left]
    exact h.pending r (hpending r hr)
  asked x hx := Asked.of_prefix (h.asked x (hops ▸ hx)) (hlines x.1.conn)
  past r hr := by
    have hr' : r ∈ s.order := by
      unfold order at hr
      rw [hops] at hr
      exact hr
    rcases eq_or_ne r.conn c with rfl | hne
    · refine .inl ?_
      rcases h.past r hr' with hlt | htask
      · exact Nat.lt_of_lt_of_le hlt hlength
      · exact hlast r.number htask
    · rw [(hother r.conn hne).left,
        answered_congr (hother r.conn hne).left (hother r.conn hne).right]
      exact h.past r hr'
  sorted := by
    unfold order
    rw [hops]
    exact h.sorted

/-- What is in the channel is neither done nor with the pump. -/
theorem Ordered.nodup (h : s.Ordered serde) : s.order.Nodup := by
  refine h.sorted.imp ?_
  rintro r r' hlt rfl
  exact Nat.lt_irrefl _ (hlt rfl)

theorem Ordered.not_pending_of_handled (h : s.Ordered serde) {r : Request}
    (hr : r ∈ s.handled.map Handled.request) : Not (s.Pending r) := by
  have hnodup := h.nodup
  unfold order ops at hnodup
  rw [List.map_append, List.map_map] at hnodup
  exact fun hpending => (List.nodup_append.mp hnodup).right.right r hr r hpending rfl

/-- A task that does not wait for a reply has nothing in the channel. -/
theorem Ordered.free (h : s.Ordered serde) {c : Nat} {t : ConnTask}
    (htask : s.task c = t) (ht : forall n, t ≠ .receiving n) (n : Nat) :
    Not (s.Pending ⟨c, n⟩) :=
  fun hpending => ht n (htask.symm.trans (h.pending ⟨c, n⟩ hpending))

theorem other_setTask (c : Nat) (t : ConnTask) (d : Nat) (h : d ≠ c) :
    (s.setTask c t).task d = s.task d ∧ (s.setTask c t).lines d = s.lines d :=
  ⟨Function.update_of_ne h _ _, rfl⟩

theorem Ordered.read (h : s.Ordered serde) {c : Nat} {line : String} {t : ConnTask}
    {bytes : Nat -> List UInt8} (htask : s.task c = .reading)
    (ht : t = .reading ∨ exists op, t = .sending (s.lines c).length op) :
    { (s.addLine c line).setTask c t with written := bytes }.Ordered serde := by
  have hself : { (s.addLine c line).setTask c t with written := bytes }.lines c =
      s.lines c ++ [line] := Function.update_self ..
  have htask' : { (s.addLine c line).setTask c t with written := bytes }.task c = t :=
    Function.update_self ..
  refine h.move (c := c) rfl (fun _ => id) (fun d => lines_addLine c d line) ?_
    (h.free htask nofun) ?_ ?_
  · intro d hd
    exact ⟨Function.update_of_ne hd _ _, Function.update_of_ne hd _ _⟩
  · rw [answered_reading htask]
    unfold answered
    rw [htask', hself]
    rcases ht with rfl | ⟨op, rfl⟩
    · simp
    · simp
  · intro n hn
    cases htask.symm.trans hn

/-- The reply to the last line of a connection is written. -/
theorem Ordered.write (h : s.Ordered serde) (htasks : s.Tasks serde) {c n : Nat}
    (htask : s.task c = .receiving n) (hfree : Not (s.Pending ⟨c, n⟩))
    (bytes : List UInt8) : (s.write c bytes).Ordered serde := by
  have hanswered : (s.write c bytes).answered c = s.lines c :=
    answered_reading (s := s.write c bytes) (Function.update_self ..)
  have hlength := (htasks.receiving c n htask).left
  refine h.move (c := c) rfl (fun _ => id) (fun _ => List.prefix_rfl) ?_ ?_ ?_ ?_
  · intro d hd
    exact ⟨Function.update_of_ne hd _ _, rfl⟩
  · intro m hm
    cases htask.symm.trans (h.pending ⟨c, m⟩ hm)
    exact hfree hm
  · rw [hanswered, answered_receiving htask]
    exact List.length_take_le' ..
  · intro m hm
    cases htask.symm.trans hm
    rw [hanswered]
    omega

theorem ops_enqueue (c n : Nat) (op : Op) :
    (s.enqueue c n op).ops = s.ops ++ [(⟨c, n⟩, op)] := by
  unfold ops enqueue
  simp

theorem order_enqueue (c n : Nat) (op : Op) :
    (s.enqueue c n op).order = s.order ++ [⟨c, n⟩] := by
  unfold order
  rw [ops_enqueue, List.map_append]
  rfl

theorem answered_enqueue {c n : Nat} {op : Op} (htask : s.task c = .sending n op)
    (d : Nat) : (s.enqueue c n op).answered d = s.answered d := by
  rcases eq_or_ne d c with rfl | hd
  · rw [answered_receiving (s := s.enqueue d n op) (Function.update_self ..)]
    unfold answered
    rw [htask]
    rfl
  · exact answered_congr (Function.update_of_ne hd _ _) rfl

theorem Ordered.send (h : s.Ordered serde) (htasks : s.Tasks serde) {c n : Nat}
    {op : Op} (htask : s.task c = .sending n op) : (s.enqueue c n op).Ordered serde := by
  have hself : (s.enqueue c n op).task c = .receiving n := Function.update_self ..
  have hother : forall d, d ≠ c -> (s.enqueue c n op).task d = s.task d :=
    fun d hd => Function.update_of_ne hd _ _
  have hanswered := answered_enqueue htask
  refine ⟨?_, ?_, ?_, ?_⟩
  · intro r hr
    have hr' : s.Pending r ∨ r = ⟨c, n⟩ := by
      unfold Pending at hr ⊢
      unfold enqueue at hr
      rw [← List.append_assoc, List.map_append] at hr
      exact (List.mem_append.mp hr).imp_right List.mem_singleton.mp
    rcases hr' with hold | rfl
    · have hne : r.conn ≠ c := by
        rintro rfl
        cases htask.symm.trans (h.pending r hold)
      rw [hother r.conn hne]
      exact h.pending r hold
    · exact hself
  · intro x hx
    rw [ops_enqueue] at hx
    rcases List.mem_append.mp hx with hold | hnew
    · exact h.asked x hold
    · rw [List.mem_singleton.mp hnew]
      exact (htasks.sending c n op htask).right
  · intro r hr
    rw [order_enqueue] at hr
    rw [hanswered]
    rcases List.mem_append.mp hr with hold | hnew
    · rcases h.past r hold with hlt | hrec
      · exact .inl hlt
      · have hne : r.conn ≠ c := by
          rintro rfl
          cases htask.symm.trans hrec
        exact .inr ((hother r.conn hne).trans hrec)
    · rw [List.mem_singleton.mp hnew]
      exact .inr hself
  · rw [order_enqueue]
    refine List.pairwise_append.mpr ⟨h.sorted, List.pairwise_singleton .., ?_⟩
    intro r hr r' hr'
    rw [List.mem_singleton.mp hr']
    rintro rfl
    rcases h.past r hr with hlt | hrec
    · unfold answered at hlt
      rw [htask] at hlt
      exact Nat.lt_of_lt_of_le hlt (List.length_take_le ..)
    · cases htask.symm.trans hrec

/-- Operations move on through the channel, or leave it. -/
theorem Ordered.shift (h : s.Ordered serde) (hlines : s'.lines = s.lines)
    (htask : s'.task = s.task) (hops : s'.ops.Sublist s.ops)
    (hpending : forall r, s'.Pending r -> s.Pending r) : s'.Ordered serde where
  pending r hr := by
    rw [htask]
    exact h.pending r (hpending r hr)
  asked x hx := Asked.of_prefix (h.asked x (hops.subset hx)) (hlines ▸ List.prefix_rfl)
  past r hr := by
    rw [htask, answered_congr (congrFun htask r.conn) (congrFun hlines r.conn)]
    exact h.past r ((hops.map Prod.fst).subset hr)
  sorted := h.sorted.sublist (hops.map Prod.fst)

theorem ops_finished {r : Request} {op : Op} (reply : Reply)
    (hpump : s.pump = some (r, op)) : (s.finished r op reply).ops = s.ops := by
  unfold ops finished
  rw [hpump]
  simp

theorem Ordered.step (h : s.Ordered serde) (htasks : s.Tasks serde)
    (hreplies : forall r reply, s.replies r = some reply ->
      r ∈ s.handled.map Handled.request)
    (hstep : Performed serde s a s') : s'.Ordered serde := by
  cases hstep with
  | accept =>
      have hended := htasks.unknown s.accepted (Nat.le_refl _)
      refine h.move (c := s.accepted) rfl (fun _ => id) (fun _ => List.prefix_rfl)
        (other_setTask _ _) (h.free hended.left nofun) ?_ ?_
      · have hzero : s.answered s.accepted = [] := by
          unfold answered
          rw [hended.left]
          exact hended.right
        rw [hzero]
        exact Nat.zero_le _
      · intro n hn
        cases hended.left.symm.trans hn
  | malformed htask herror => exact h.read htask (.inl rfl)
  | ask htask hop => exact h.read htask (.inr ⟨_, rfl⟩)
  | @readEnd c htask =>
      refine h.move (c := c) rfl (fun _ => id) (fun _ => List.prefix_rfl)
        (other_setTask _ _) (h.free htask nofun) ?_ ?_
      · rw [answered_reading htask]
        unfold answered Connections.setTask
        simp
      · intro n hn
        cases htask.symm.trans hn
  | @drop c n op htask hstopped =>
      refine h.move (c := c) rfl (fun _ => id) (fun _ => List.prefix_rfl)
        (other_setTask _ _) (h.free htask nofun) ?_ ?_
      · unfold answered Connections.setTask
        simp [htask]
      · intro m hm
        cases htask.symm.trans hm
  | send htask hstopped hroom => exact h.send htasks htask
  | recv htask hreply =>
      exact h.write htasks htask (h.not_pending_of_handled (hreplies _ _ hreply)) _
  | recvClosed htask hreply hpending => exact h.write htasks htask hpending _
  | take hpump hqueue =>
      refine h.shift rfl rfl ?_ ?_
      · unfold ops
        simp [hpump, hqueue]
      · intro r hr
        unfold Pending at hr ⊢
        simpa [hpump, hqueue] using hr
  | finish reply hpump =>
      refine h.shift rfl rfl ((ops_finished reply hpump).symm ▸ List.Sublist.refl _) ?_
      intro r hr
      unfold Pending at hr ⊢
      unfold finished at hr
      exact List.map_subset _ (List.sublist_append_right ..).subset hr
  | signal hpump hstopped =>
      refine h.shift rfl rfl ?_ ?_
      · unfold ops
        simp [hpump]
      · intro r hr
        unfold Pending at hr
        simp [hpump] at hr

end Connections

end Daemon
end OpenMk3
