import Mathlib.Algebra.BigOperators.Group.Finset.Basic
import OpenMk3.Daemon.Connections

/-!
# The service of the socket

Along every interleaving of the connections, the pump and the signals, each
connection is served as by `serve` alone, the operations are performed one at a
time in the order in which they were sent, and no line is left without an answer.
-/

namespace OpenMk3
namespace Daemon

open Library

namespace Connections

variable {serde : Serde} {s s' : Connections} {a : ConnAct}

/-!
## What is written
-/

theorem serve_congr {handler handler' : Handler} {lines : List String}
    (h : forall n, n < lines.length -> handler n = handler' n) :
    serve serde handler lines = serve serde handler' lines := by
  induction lines using List.reverseRecOn with
  | nil => rfl
  | append_singleton lines line ih =>
      rw [List.length_append, List.length_singleton] at h
      rw [serve_snoc, serve_snoc, ih fun n hn => h n (Nat.lt_succ_of_lt hn)]
      unfold answer
      rw [h lines.length (Nat.lt_succ_self _)]

/-- What is known of the replies. -/
structure Replied (serde : Serde) (s : Connections) : Prop where
  replies : forall r reply, s.replies r = some reply <->
    exists h, h ∈ s.handled ∧ h.request = r ∧ h.reply = reply
  written : forall c, s.written c =
    serve serde (fun n _ => s.replies ⟨c, n⟩) (s.answered c)
  complete : s.stopped = false -> forall r op, s.Asked serde r op ->
    r.number < (s.answered r.conn).length -> r ∈ s.handled.map Handled.request
  receiving : s.stopped = false -> forall c n, s.task c = .receiving n ->
    (⟨c, n⟩ : Request) ∈ s.order
  closed : s.stopped = true -> s.pump = none ∧ s.queue = []

theorem replied_start : start.Replied serde where
  replies r reply := by
    refine iff_of_false nofun ?_
    rintro ⟨h, hmem, -⟩
    cases hmem
  written _ := rfl
  complete _ r op h := by
    rcases h with ⟨line, hline, -⟩
    cases hline
  receiving _ := nofun
  closed := nofun

theorem Replied.mem_handled (h : s.Replied serde) {r : Request} {reply : Reply}
    (hreply : s.replies r = some reply) : r ∈ s.handled.map Handled.request := by
  rcases (h.replies r reply).mp hreply with ⟨done, hmem, rfl, -⟩
  exact List.mem_map_of_mem hmem

/-- A task moves, and what is written follows what it has answered. -/
theorem Replied.move (h : s.Replied serde) {c : Nat}
    (hframe : s'.replies = s.replies ∧ s'.handled = s.handled ∧
      s'.stopped = s.stopped ∧ s'.pump = s.pump ∧ s'.queue = s.queue)
    (hother : forall d, d ≠ c -> s'.task d = s.task d ∧ s'.lines d = s.lines d ∧
      s'.written d = s.written d)
    (hwritten : s'.written c =
      serve serde (fun n _ => s.replies ⟨c, n⟩) (s'.answered c))
    (hcomplete : s.stopped = false -> forall n op, s'.Asked serde ⟨c, n⟩ op ->
      n < (s'.answered c).length -> (⟨c, n⟩ : Request) ∈ s.handled.map Handled.request)
    (hreceiving : s.stopped = false -> forall n, s'.task c = .receiving n ->
      (⟨c, n⟩ : Request) ∈ s.order) : s'.Replied serde := by
  rcases hframe with ⟨hreplies, hhandled, hstopped, hpump, hqueue⟩
  have horder : s'.order = s.order := by
    unfold order ops
    rw [hhandled, hpump, hqueue]
  have hanswered : forall d, d ≠ c -> s'.answered d = s.answered d := fun d hd =>
    answered_congr (hother d hd).left (hother d hd).right.left
  refine ⟨?_, ?_, ?_, ?_, ?_⟩
  · rw [hreplies, hhandled]
    exact h.replies
  · intro d
    rw [hreplies]
    rcases eq_or_ne d c with rfl | hd
    · exact hwritten
    · rw [hanswered d hd, (hother d hd).right.right]
      exact h.written d
  · intro hrunning r op hasked hlt
    rw [hhandled]
    rw [hstopped] at hrunning
    rcases eq_or_ne r.conn c with rfl | hd
    · exact hcomplete hrunning r.number op hasked hlt
    · rw [hanswered r.conn hd] at hlt
      refine h.complete hrunning r op (hasked.of_prefix ?_) hlt
      exact (hother r.conn hd).right.left ▸ List.prefix_rfl
  · intro hrunning d n htask
    rw [horder]
    rw [hstopped] at hrunning
    rcases eq_or_ne d c with rfl | hd
    · exact hreceiving hrunning n htask
    · exact h.receiving hrunning d n ((hother d hd).left ▸ htask)
  · rw [hstopped, hpump, hqueue]
    exact h.closed

theorem mem_handled_or_pending {r : Request} (h : r ∈ s.order) :
    r ∈ s.handled.map Handled.request ∨ s.Pending r := by
  unfold order ops at h
  rw [List.map_append, List.map_map] at h
  exact List.mem_append.mp h

/-- A line that has been read, and answered if it is no operation. -/
theorem Replied.read (h : s.Replied serde) {c : Nat} {line : String}
    {t : ConnTask} {bytes : List UInt8} (htask : s.task c = .reading)
    (ht : forall n, t ≠ .receiving n)
    (hwritten : s.written c ++ bytes =
      serve serde (fun n _ => s.replies ⟨c, n⟩) (((s.addLine c line).setTask c t).answered c))
    (hcomplete : forall op, serde.fromStr line = .ok op ->
      (((s.addLine c line).setTask c t).answered c).length ≤ (s.lines c).length) :
    { (s.addLine c line).setTask c t with
      written := Function.update s.written c (s.written c ++ bytes) }.Replied serde := by
  let s' : Connections :=
    { (s.addLine c line).setTask c t with
      written := Function.update s.written c (s.written c ++ bytes) }
  have hlines : s'.lines c = s.lines c ++ [line] := Function.update_self ..
  refine h.move (c := c) ⟨rfl, rfl, rfl, rfl, rfl⟩ ?_ ?_ ?_ ?_
  · intro d hd
    exact ⟨Function.update_of_ne hd _ _, Function.update_of_ne hd _ _,
      Function.update_of_ne hd _ _⟩
  · exact (Function.update_self ..).trans hwritten
  · intro hrunning n op hasked hlt
    rcases Nat.lt_or_ge n (s.lines c).length with hold | hnew
    · refine h.complete hrunning ⟨c, n⟩ op ?_ (answered_reading htask ▸ hold)
      exact hasked.of_lt hold (lines_addLine c c line)
    · have hn : n = (s.lines c).length := by
        have hlen := hasked.lt
        rw [hlines, List.length_append, List.length_singleton] at hlen
        exact Nat.le_antisymm (Nat.le_of_lt_succ hlen) hnew
      rcases hasked with ⟨line', hline', hop⟩
      have hsame : line' = line := by
        have hline : (s'.lines c)[n]? = some line' := hline'
        rw [hlines, hn, List.getElem?_concat_length] at hline
        exact (Option.some.inj hline).symm
      exact absurd (Nat.lt_of_lt_of_le hlt (hcomplete op (hsame ▸ hop)))
        (Nat.not_lt.mpr hnew)
  · intro _ n hn
    exact absurd ((Function.update_self ..).symm.trans hn) (ht n)

/-- The task of a connection has the reply to its last line, or learns that none
will come. -/
theorem Replied.write (h : s.Replied serde) (htasks : s.Tasks serde) {c n : Nat}
    (htask : s.task c = .receiving n)
    (hdone : s.stopped = false -> (⟨c, n⟩ : Request) ∈ s.handled.map Handled.request) :
    (s.write c (replyLine serde
      ((s.replies ⟨c, n⟩).getD (errorReply "no reply")))).Replied serde := by
  rcases htasks.receiving c n htask with ⟨hlength, op, line, hline, hop⟩
  have hsplit : s.lines c = (s.lines c).take n ++ [line] := by
    rcases List.getElem?_eq_some_iff.mp hline with ⟨hlt, heq⟩
    rw [← heq, List.take_concat_get', hlength, List.take_length]
  have htake : ((s.lines c).take n).length = n := by
    rw [List.length_take]
    omega
  refine h.move (c := c) ⟨rfl, rfl, rfl, rfl, rfl⟩ ?_ ?_ ?_ ?_
  · intro d hd
    exact ⟨Function.update_of_ne hd _ _, rfl, Function.update_of_ne hd _ _⟩
  · rw [answered_reading (s := s.write c _) (Function.update_self ..)]
    show Function.update s.written c _ c = serve serde _ (s.lines c)
    rw [Function.update_self, hsplit, serve_snoc, htake, h.written c,
      answered_receiving htask]
    unfold answer replyLine
    rw [hop]
  · intro hrunning m op' hasked hlt
    rcases Nat.lt_or_ge m n with hold | hnew
    · refine h.complete hrunning ⟨c, m⟩ op' hasked ?_
      show m < (s.answered c).length
      rw [answered_receiving htask, htake]
      exact hold
    · have hlt : m < (s.lines c).length := hasked.lt
      have hm : m = n := by
        omega
      exact hm ▸ hdone hrunning
  · intro _ m hm
    cases (Function.update_self ..).symm.trans hm

theorem Replied.send (h : s.Replied serde) {c n : Nat} {op : Op}
    (htask : s.task c = .sending n op) (hstopped : s.stopped = false) :
    (s.enqueue c n op).Replied serde := by
  have hself : (s.enqueue c n op).task c = .receiving n := Function.update_self ..
  have hother : forall d, d ≠ c -> (s.enqueue c n op).task d = s.task d :=
    fun d hd => Function.update_of_ne hd _ _
  have hanswered := answered_enqueue htask
  refine ⟨h.replies, ?_, ?_, ?_, ?_⟩
  · intro d
    rw [hanswered d]
    exact h.written d
  · intro hrunning r op' hasked hlt
    rw [hanswered] at hlt
    exact h.complete hrunning r op' hasked hlt
  · intro hrunning d m hm
    rw [order_enqueue]
    rcases eq_or_ne d c with rfl | hd
    · cases hself.symm.trans hm
      exact List.mem_append_right _ (List.mem_singleton.mpr rfl)
    · exact List.mem_append_left _ (h.receiving hrunning d m ((hother d hd) ▸ hm))
  · intro hclosed
    cases hstopped.symm.trans hclosed

theorem Replied.finish (h : s.Replied serde) (hordered : s.Ordered serde) {r : Request}
    {op : Op} (reply : Reply) (hpump : s.pump = some (r, op)) :
    (s.finished r op reply).Replied serde := by
  have hpending : s.Pending r := by
    unfold Pending
    rw [hpump]
    exact List.mem_cons_self
  have hnew : r ∉ s.handled.map Handled.request :=
    fun hmem => hordered.not_pending_of_handled hmem hpending
  have htask := hordered.pending r hpending
  refine ⟨?_, ?_, ?_, ?_, ?_⟩
  · intro r' reply'
    show Function.update s.replies r (some reply) r' = some reply' <-> exists done,
      done ∈ s.handled ++ [{ request := r, op := op, reply := reply }] ∧
        done.request = r' ∧ done.reply = reply'
    constructor
    · intro hreply
      rcases eq_or_ne r' r with rfl | hr
      · rw [Function.update_self] at hreply
        cases hreply
        exact ⟨_, List.mem_append_right _ (List.mem_singleton.mpr rfl), rfl, rfl⟩
      · rw [Function.update_of_ne hr] at hreply
        rcases (h.replies r' reply').mp hreply with ⟨done, hmem, hdone⟩
        exact ⟨done, List.mem_append_left _ hmem, hdone⟩
    · rintro ⟨done, hmem, rfl, rfl⟩
      rcases List.mem_append.mp hmem with hold | hlast
      · have hr : done.request ≠ r := by
          rintro rfl
          exact hnew (List.mem_map_of_mem hold)
        rw [Function.update_of_ne hr]
        exact (h.replies _ _).mpr ⟨done, hold, rfl, rfl⟩
      · rw [List.mem_singleton.mp hlast]
        exact Function.update_self ..
  · intro c
    show s.written c = serve serde (fun n _ =>
      Function.update s.replies r (some reply) ⟨c, n⟩) (s.answered c)
    rw [h.written c]
    refine serve_congr ?_
    intro n hn
    have hne : (⟨c, n⟩ : Request) ≠ r := by
      rintro rfl
      rw [answered_receiving htask] at hn
      exact Nat.not_lt.mpr (List.length_take_le n (s.lines c)) hn
    funext _
    rw [Function.update_of_ne hne]
  · intro hrunning r' op' hasked hlt
    show r' ∈ (s.handled ++ [_]).map Handled.request
    rw [List.map_append]
    exact List.mem_append_left _ (h.complete hrunning r' op' hasked hlt)
  · intro hrunning c n hn
    unfold order
    rw [ops_finished reply hpump]
    exact h.receiving hrunning c n hn
  · intro hclosed
    rw [(h.closed hclosed).left] at hpump
    cases hpump

/-- A task moves on with what it has answered. -/
theorem Replied.setTask (h : s.Replied serde) {c : Nat} {t : ConnTask}
    (hanswered : (s.setTask c t).answered c = s.answered c)
    (hreceiving : s.stopped = false -> forall n, t = .receiving n ->
      (⟨c, n⟩ : Request) ∈ s.order) : (s.setTask c t).Replied serde := by
  refine h.move (c := c) ⟨rfl, rfl, rfl, rfl, rfl⟩ ?_ ?_ ?_ ?_
  · intro d hd
    exact ⟨Function.update_of_ne hd _ _, rfl, rfl⟩
  · rw [hanswered]
    exact h.written c
  · intro hrunning n op hasked hlt
    exact h.complete hrunning ⟨c, n⟩ op hasked (hanswered ▸ hlt)
  · intro hrunning n hn
    exact hreceiving hrunning n ((Function.update_self ..).symm.trans hn)

theorem Replied.accept (h : s.Replied serde) (htasks : s.Tasks serde) :
    { s.setTask s.accepted .reading with accepted := s.accepted + 1 }.Replied
      serde := by
  rcases htasks.unknown s.accepted (Nat.le_refl _) with ⟨hended, -⟩
  have hanswered : (s.setTask s.accepted .reading).answered s.accepted =
      s.answered s.accepted := by
    rw [answered_reading (s := s.setTask s.accepted .reading)
      (Function.update_self ..)]
    unfold answered
    rw [hended]
    rfl
  have hmoved := h.setTask hanswered nofun
  exact ⟨hmoved.replies, hmoved.written, hmoved.complete, hmoved.receiving,
    hmoved.closed⟩

theorem Replied.malformed (h : s.Replied serde) {c : Nat} {line e : String}
    (htask : s.task c = .reading) (herror : serde.fromStr line = .error e) :
    { (s.addLine c line).setTask c .reading with
      written := Function.update s.written c
        (s.written c ++ Daemon.malformed e) }.Replied serde := by
  have hanswered : ((s.addLine c line).setTask c .reading).answered c =
      s.lines c ++ [line] :=
    (answered_reading (s := (s.addLine c line).setTask c .reading)
      (Function.update_self ..)).trans (Function.update_self ..)
  refine h.read (t := .reading) htask nofun ?_ ?_
  · rw [hanswered, serve_snoc, h.written c, answered_reading htask]
    unfold answer
    rw [herror]
  · intro op hop
    cases herror.symm.trans hop

theorem Replied.ask (h : s.Replied serde) {c : Nat} {line : String} {op : Op}
    (htask : s.task c = .reading) :
    ((s.addLine c line).setTask c (.sending (s.lines c).length op)).Replied serde := by
  have hanswered : ((s.addLine c line).setTask c
      (.sending (s.lines c).length op)).answered c = s.lines c := by
    unfold answered Connections.setTask Connections.addLine
    simp
  have hwritten : Function.update s.written c (s.written c ++ []) = s.written := by
    rw [List.append_nil, Function.update_eq_self]
  have hread : { (s.addLine c line).setTask c (.sending (s.lines c).length op) with
      written := Function.update s.written c (s.written c ++ []) }.Replied serde := by
    refine h.read htask nofun ?_ ?_
    · rw [hanswered, List.append_nil, h.written c, answered_reading htask]
    · intro _ _
      exact Nat.le_of_eq (congrArg List.length hanswered)
  rw [hwritten] at hread
  exact hread

theorem Replied.take (h : s.Replied serde) {next : Request × Op}
    {rest : List (Request × Op)} (hpump : s.pump = none)
    (hqueue : s.queue = next :: rest) :
    { s with pump := some next, queue := rest }.Replied serde := by
  have hops : { s with pump := some next, queue := rest }.ops = s.ops := by
    unfold ops
    simp [hpump, hqueue]
  refine ⟨h.replies, h.written, h.complete, ?_, ?_⟩
  · intro hrunning c n hn
    unfold order
    rw [hops]
    exact h.receiving hrunning c n hn
  · intro hclosed
    rw [(h.closed hclosed).right] at hqueue
    cases hqueue

theorem Replied.step (h : s.Replied serde) (htasks : s.Tasks serde)
    (hordered : s.Ordered serde) (hstep : Performed serde s a s') :
    s'.Replied serde := by
  cases hstep with
  | accept => exact h.accept htasks
  | malformed htask herror => exact h.malformed htask herror
  | ask htask hop => exact h.ask htask
  | @readEnd c htask =>
      refine h.setTask (t := .ended) ?_ nofun
      rw [answered_reading htask]
      unfold answered Connections.setTask
      simp
  | @drop c n op htask hstopped =>
      refine h.setTask (t := .receiving n) ?_ ?_
      · unfold answered Connections.setTask
        simp [htask]
      · intro hrunning
        cases hstopped.symm.trans hrunning
  | send htask hstopped hroom => exact h.send htask hstopped
  | @recv c n reply htask hreply =>
      have hwrite := h.write htasks htask (fun _ => h.mem_handled hreply)
      rw [hreply] at hwrite
      exact hwrite
  | @recvClosed c n htask hreply hpending =>
      have hdone : s.stopped = false ->
          (⟨c, n⟩ : Request) ∈ s.handled.map Handled.request := fun hrunning =>
        (mem_handled_or_pending (h.receiving hrunning c n htask)).resolve_right hpending
      have hwrite := h.write htasks htask hdone
      rw [hreply] at hwrite
      exact hwrite
  | take hpump hqueue => exact h.take hpump hqueue
  | finish reply hpump => exact h.finish hordered reply hpump
  | signal hpump hstopped =>
      refine ⟨h.replies, h.written, ?_, ?_, fun _ => ⟨hpump, rfl⟩⟩
      · intro hrunning
        cases hrunning
      · intro hrunning
        cases hrunning

/-!
## Runs
-/

structure Sound (serde : Serde) (s : Connections) : Prop where
  tasks : s.Tasks serde
  ordered : s.Ordered serde
  replied : s.Replied serde

theorem Sound.step (h : s.Sound serde) (hstep : Performed serde s a s') :
    s'.Sound serde where
  tasks := h.tasks.step hstep
  ordered := h.ordered.step h.tasks (fun _ _ => h.replied.mem_handled) hstep
  replied := h.replied.step h.tasks h.ordered hstep

theorem run_sound {actions : List ConnAct}
    (h : Transition.run (step serde) start actions = some s) : s.Sound serde := by
  have hkeep : forall t a t', t.Sound serde -> True -> step serde t a = some t' ->
      t'.Sound serde := fun t a t' ht _ hstep => ht.step (performed_of_step serde hstep)
  exact Transition.run_invariant_of_steps (step serde) (fun _ _ => True)
    ⟨tasks_start, ordered_start, replied_start⟩ hkeep (fun _ _ _ _ _ => trivial) h

/-- Every connection is served by itself, and the operations of all of them are
performed one after the other. -/
structure Served (serde : Serde) (s : Connections) : Prop where
  written : forall c, s.written c =
    serve serde (fun n _ => s.replies ⟨c, n⟩) (s.answered c)
  replies : forall r reply, s.replies r = some reply <->
    exists h, h ∈ s.handled ∧ h.request = r ∧ h.reply = reply
  asked : forall h, h ∈ s.handled -> s.Asked serde h.request h.op
  once : (s.handled.map Handled.request).Nodup
  inOrder : (s.handled.map Handled.request).Pairwise fun r r' =>
    r.conn = r'.conn -> r.number < r'.number
  complete : s.stopped = false -> forall r op, s.Asked serde r op ->
    r.number < (s.answered r.conn).length -> r ∈ s.handled.map Handled.request

theorem handled_prefix_order : s.handled.map Handled.request <+: s.order := by
  unfold order ops
  rw [List.map_append, List.map_map]
  exact List.prefix_append _ _

/-- In every run, whatever the handler replies: what is written on a connection is
what `serve` writes for the lines answered so far, each operation with the one
reply that was made for it.  Operations are performed once and those of a connection
in order, and no line goes without its reply before the daemon is stopped. -/
theorem connections_served_run {actions : List ConnAct}
    (h : Transition.run (step serde) start actions = some s) : s.Served serde := by
  rcases run_sound h with ⟨-, hordered, hreplied⟩
  refine ⟨hreplied.written, hreplied.replies, ?_,
    handled_prefix_order.sublist.nodup hordered.nodup,
    hordered.sorted.sublist handled_prefix_order.sublist, hreplied.complete⟩
  intro done hmem
  exact hordered.asked (done.request, done.op)
    (List.mem_append_left _ (List.mem_map_of_mem hmem))

/-- One operation has a text. -/
private def plainSerde : Serde where
  fromStr line := if line = "status" then .ok .status else .error "bad"
  toString _ := none

/-- The second client is served first, and has written something else before. -/
private def twoClients : List ConnAct :=
  [.accept, .accept, .readLine 0 "status", .readLine 1 "hello", .readLine 1 "status",
    .send 1, .send 0, .take, .finish (errorReply "busy"), .recv 1]

theorem connections_served_twoClients :
    exists s, Transition.run (step plainSerde) start twoClients = some s ∧
      s.Served plainSerde ∧ s.stopped = false ∧ s.handled.length = 1 := by
  have hsome : (Transition.run (step plainSerde) start twoClients).isSome = true := by
    decide
  exact ⟨_, Option.eq_some_of_isSome hsome,
    connections_served_run (Option.eq_some_of_isSome hsome), rfl, rfl⟩

/-!
## First come, first served
-/

theorem order_step (hstep : Performed serde s a s') :
    s.order <+: s'.order ∧ (s.stopped = true -> s'.stopped = true ∧ s'.order = s.order) ∨
      s.stopped = false ∧ s'.stopped = true ∧ s'.order <+: s.order := by
  cases hstep with
  | @send c n op htask hstopped hroom =>
      refine .inl ⟨?_, ?_⟩
      · rw [order_enqueue]
        exact List.prefix_append _ _
      · intro h
        cases hstopped.symm.trans h
  | @take next rest hpump hqueue =>
      have horder : { s with pump := some next, queue := rest }.order = s.order := by
        unfold order ops
        simp [hpump, hqueue]
      exact .inl ⟨horder ▸ List.prefix_rfl, fun h => ⟨h, horder⟩⟩
  | @finish r op reply hpump =>
      have horder : (s.finished r op reply).order = s.order :=
        congrArg (List.map Prod.fst) (ops_finished reply hpump)
      exact .inl ⟨horder ▸ List.prefix_rfl, fun h => ⟨h, horder⟩⟩
  | signal hpump hstopped =>
      have horder : { s with stopped := true, queue := [] }.order =
          s.handled.map Handled.request := by
        unfold order ops
        simp [hpump]
      exact .inr ⟨hstopped, rfl, horder ▸ handled_prefix_order⟩
  | _ => exact .inl ⟨List.prefix_rfl, fun h => ⟨h, rfl⟩⟩

/-- What was sent stays sent, in the same order, until the channel is closed with
what is in it. -/
def Follows (s s' : Connections) : Prop :=
  s.order <+: s'.order ∨ s'.stopped = true ∧ s'.order <+: s.order

theorem Follows.step {t : Connections} (h : Follows t s)
    (hstep : Performed serde s a s') : Follows t s' := by
  rcases order_step hstep with ⟨hmore, hstopped⟩ | ⟨hrunning, hstopped, hless⟩
  · rcases h with hold | ⟨hclosed, hold⟩
    · exact .inl (hold.trans hmore)
    · rcases hstopped hclosed with ⟨hclosed', horder⟩
      exact .inr ⟨hclosed', horder ▸ hold⟩
  · rcases h with hold | ⟨hclosed, -⟩
    · exact (List.prefix_or_prefix_of_prefix hold hless).imp_right fun h => ⟨hstopped, h⟩
    · cases hrunning.symm.trans hclosed

theorem run_follows {t : Connections} {actions : List ConnAct}
    (h : Transition.run (step serde) t actions = some s) : Follows t s := by
  have hkeep : forall u a u', Follows t u -> True -> step serde u a = some u' ->
      Follows t u' := fun u a u' hu _ hstep => hu.step (performed_of_step serde hstep)
  exact Transition.run_invariant_of_steps (step serde) (fun _ _ => True)
    (.inl List.prefix_rfl) hkeep (fun _ _ _ _ _ => trivial) h

/-- From any state on: once an operation that had not been sent then has been
performed, everything that had been sent by then has been performed before it, in
the order in which it was sent. -/
theorem handled_in_order_run {later : List ConnAct} {t : Connections}
    (hlater : Transition.run (step serde) t later = some s) {r : Request}
    (hunsent : r ∉ t.order) (hdone : r ∈ s.handled.map Handled.request) :
    exists after, s.handled.map Handled.request = t.order ++ after ∧ r ∈ after := by
  have horder : t.order <+: s.order := by
    rcases run_follows hlater with hmore | ⟨-, hless⟩
    · exact hmore
    · exact absurd (hless.subset (handled_prefix_order.subset hdone)) hunsent
  have hprefix : t.order <+: s.handled.map Handled.request := by
    rcases List.prefix_or_prefix_of_prefix horder handled_prefix_order with h | h
    · exact h
    · exact absurd (h.subset hdone) hunsent
  rcases hprefix with ⟨after, hafter⟩
  refine ⟨after, hafter.symm, ?_⟩
  rw [← hafter] at hdone
  exact (List.mem_append.mp hdone).resolve_left hunsent

/-- The first client has not sent its operation when the second has. -/
theorem handled_in_order_twoClients :
    exists t s, Transition.run (step plainSerde) start (twoClients.take 6) = some t ∧
      Transition.run (step plainSerde) t
          [.send 0, .take, .finish (errorReply "busy"), .take, .finish (errorReply "")] =
        some s ∧
      t.order = [⟨1, 1⟩] ∧
      exists after, s.handled.map Handled.request = t.order ++ after ∧ ⟨0, 0⟩ ∈ after := by
  have hfirst : (Transition.run (step plainSerde) start (twoClients.take 6)).isSome =
      true := by
    decide
  let t := Option.get _ hfirst
  let s := (Transition.run (step plainSerde) t
    [.send 0, .take, .finish (errorReply "busy"), .take, .finish (errorReply "")]).getD t
  have hlater : Transition.run (step plainSerde) t
      [.send 0, .take, .finish (errorReply "busy"), .take, .finish (errorReply "")] =
        some s := rfl
  have hunsent : (⟨0, 0⟩ : Request) ∉ t.order := by
    show (⟨0, 0⟩ : Request) ∉ [(⟨1, 1⟩ : Request)]
    decide
  have hdone : (⟨0, 0⟩ : Request) ∈ s.handled.map Handled.request := by
    show (⟨0, 0⟩ : Request) ∈ [(⟨1, 1⟩ : Request), ⟨0, 0⟩]
    decide
  exact ⟨t, s, Option.eq_some_of_isSome hfirst, hlater, rfl,
    handled_in_order_run hlater hunsent hdone⟩

/-!
## Every line is answered
-/

/-- What goes on without a client or a signal. -/
def Inner : ConnAct -> Prop
  | .send _ | .recv _ | .take | .finish _ => True
  | _ => False

def weight : ConnTask -> Nat
  | .sending .. => 4
  | .receiving _ => 1
  | _ => 0

/-- A line that is being answered is sent, taken, performed and answered. -/
def work (s : Connections) : Nat :=
  ∑ c ∈ Finset.range s.accepted, weight (s.task c) + 2 * s.queue.length +
    s.pump.toList.length

end Connections

end Daemon
end OpenMk3
