import OpenMk3.Daemon.OscEvents
import OpenMk3.Device.Mirror
import OpenMk3.Library.Leases
import OpenMk3.Library.Transition

/-!
# OSC fan-out

The receive task of the OSC listener records who has sent a datagram and when;
the broadcaster drops those it has not heard for a minute and sends to the rest.
The two share the table of subscribers under a lock, so the times at which they
use it do not run back.
-/

namespace OpenMk3
namespace Daemon

open Library Device

/-- Times are in nanoseconds. -/
def subscriberTtl : Nat := 60 * 1000000000

def udpBuffer : Nat := 2048

def commandCapacity : Nat := 256

inductive OscPacket (command : Type) where
  | message (m : command)
  | bundle

/-- The codec for the messages the daemon sends and for those it receives. -/
structure Rosc (command : Type) where
  encode : OscMessage -> Option (List UInt8)
  decodeUdp : List UInt8 -> Option (OscPacket command)

/-- The table, the last time it was used, the command that waits for room in the
channel, the channel, and the datagrams sent. -/
structure OscState (address command : Type) where
  subs : Leases address
  clock : Nat
  waiting : Option (address × command)
  commands : List (address × command)
  sent : List (address × List UInt8)

inductive OscAct (address : Type) where
  | datagram (src : address) (bytes : List UInt8) (now : Nat)
  -- The channel takes the command.
  | forward
  -- The command pump takes the next one, which has no effect yet.
  | command
  | emit (m : OscMessage) (now : Nat)

/-!
## What the actions of a run say
-/

section Actions

variable {address : Type}

/-- The datagrams that arrived, each with its sender and its time. -/
def heard (actions : List (OscAct address)) : List (address × Nat) :=
  actions.filterMap fun
    | .datagram src _ now => some (src, now)
    | _ => none

/-- The messages that were emitted. -/
def emitted (actions : List (OscAct address)) : List OscMessage :=
  actions.filterMap fun
    | .emit m _ => some m
    | _ => none

end Actions

/-!
## The server
-/

section Server

variable {address command : Type} [DecidableEq address] (rosc : Rosc command)

def OscState.start : OscState address command where
  subs := []
  clock := 0
  waiting := none
  commands := []
  sent := []

/-- One turn of the receive loop up to the channel. -/
def OscState.receive (s : OscState address command) (src : address)
    (bytes : List UInt8) (now : Nat) : OscState address command :=
  { s with
    clock := now
    subs := s.subs.renew src now
    waiting :=
      match rosc.decodeUdp (bytes.take udpBuffer) with
      | some (.message m) => some (src, m)
      | _ => none }

/-- A message that cannot be encoded is not sent and prunes nothing. -/
def OscState.emit (s : OscState address command) (m : OscMessage) (now : Nat) :
    OscState address command :=
  match rosc.encode m with
  | none => { s with clock := now }
  | some buf =>
      { s with
        clock := now
        subs := s.subs.sweep subscriberTtl now
        sent := s.sent ++
          (s.subs.sweep subscriberTtl now).map fun l => (l.fst, buf) }

def oscStep : Transition (OscState address command) (OscAct address)
  | s, .datagram src bytes now =>
      if s.clock ≤ now ∧ s.waiting.isNone then some (s.receive rosc src bytes now)
      else none
  | s, .forward =>
      match s.waiting with
      | some c =>
          if s.commands.length < commandCapacity then
            some { s with waiting := none, commands := s.commands ++ [c] }
          else none
      | none => none
  | s, .command =>
      match s.commands with
      | _ :: rest => some { s with commands := rest }
      | [] => none
  | s, .emit m now => if s.clock ≤ now then some (s.emit rosc m now) else none

/-- What each action does when it is enabled. -/
inductive OscPerformed (s : OscState address command) :
    OscAct address -> OscState address command -> Prop where
  | receive {src : address} {bytes : List UInt8} {now : Nat}
      (hclock : s.clock ≤ now) :
      OscPerformed s (.datagram src bytes now) (s.receive rosc src bytes now)
  | queue {act : OscAct address} {s' : OscState address command}
      (hheard : heard [act] = []) (hemitted : emitted [act] = [])
      (hsubs : s'.subs = s.subs) (hclock : s'.clock = s.clock)
      (hsent : s'.sent = s.sent) : OscPerformed s act s'
  | emit {m : OscMessage} {now : Nat} (hclock : s.clock ≤ now) :
      OscPerformed s (.emit m now) (s.emit rosc m now)

variable {rosc} {s s' : OscState address command}

theorem oscPerformed_of_step {act : OscAct address}
    (h : oscStep rosc s act = some s') : OscPerformed rosc s act s' := by
  cases act with
  | datagram src bytes now =>
      simp only [oscStep] at h
      split at h
      · next hready =>
          cases h
          exact .receive hready.left
      · cases h
  | forward =>
      simp only [oscStep] at h
      split at h
      · split at h
        · cases h
          exact .queue rfl rfl rfl rfl rfl
        · cases h
      · cases h
  | command =>
      simp only [oscStep] at h
      split at h
      · cases h
        exact .queue rfl rfl rfl rfl rfl
      · cases h
  | emit m now =>
      simp only [oscStep] at h
      split at h
      · next hclock =>
          cases h
          exact .emit hclock
      · cases h

/-!
## The subscribers
-/

/-- The address was heard less than a minute ago. -/
def Subscribed (actions : List (OscAct address)) (a : address) (now : Nat) : Prop :=
  exists time, lastRenewal (heard actions) a = some time ∧
    now - time < subscriberTtl

/-- The table knows the senders of the last minute. -/
def Knows (actions : List (OscAct address)) (s : OscState address command) :
    Prop :=
  s.subs.Current subscriberTtl s.clock (heard actions)

theorem knows_step {actions : List (OscAct address)} {act : OscAct address}
    (h : Knows actions s) (hstep : oscStep rosc s act = some s') :
    Knows (actions ++ [act]) s' := by
  unfold Knows at h ⊢
  have hheard : heard (actions ++ [act]) = heard actions ++ heard [act] :=
    List.filterMap_append
  rw [hheard]
  cases oscPerformed_of_step hstep with
  | receive hclock => exact h.renew hclock _
  | queue hnone _ hsubs hclock _ =>
      rw [hnone, List.append_nil, hsubs, hclock]
      exact h
  | emit hclock =>
      have hnone : forall (m : OscMessage) (now : Nat),
          heard [OscAct.emit m now] = ([] : List (address × Nat)) := fun _ _ => rfl
      rw [hnone, List.append_nil]
      unfold OscState.emit
      split
      · exact h.later hclock
      · exact h.sweep hclock

theorem run_knows {actions : List (OscAct address)}
    (h : Transition.run (oscStep rosc) OscState.start actions = some s) :
    Knows actions s := by
  have hstart : Knows [] (OscState.start : OscState address command) :=
    Leases.current_nil subscriberTtl 0
  have hkeep : forall (xs : List (OscAct address))
      (s : OscState address command) (act : OscAct address)
      (s' : OscState address command), Knows xs s -> oscStep rosc s act = some s' ->
        True -> Knows (xs ++ [act]) s' :=
    fun _ _ _ _ hinv hstep _ => knows_step hinv hstep
  exact Transition.along_invariant (fun _ _ _ _ => True) hstart hkeep
    (fun _ _ _ _ _ _ _ => trivial) h

/-- A message goes to the addresses heard less than a minute ago, each once. -/
theorem Knows.receivers {actions : List (OscAct address)} {m : OscMessage}
    {now : Nat} {buf : List UInt8} (h : Knows actions s) (hclock : s.clock ≤ now)
    (hencode : rosc.encode m = some buf) :
    exists receivers : List address,
      (s.emit rosc m now).sent = s.sent ++ receivers.map (fun a => (a, buf)) ∧
        receivers.Nodup ∧
        forall a, a ∈ receivers <-> Subscribed actions a now := by
  refine ⟨(s.subs.sweep subscriberTtl now).map Prod.fst, ?_,
    (h.sweep hclock).nodup, ?_⟩
  · unfold OscState.emit
    rw [hencode, List.map_map]
    rfl
  · intro a
    rw [List.mem_map]
    constructor
    · rintro ⟨⟨k, time⟩, hmem, rfl⟩
      exact ⟨time, (h.mem_sweep_iff hclock k time).mp hmem⟩
    · rintro ⟨time, hlast⟩
      exact ⟨(a, time), (h.mem_sweep_iff hclock a time).mpr hlast, rfl⟩

/-- In every run, a message reaches exactly the addresses that were heard less
than a minute ago, each once, whichever messages came in between. -/
theorem emit_reaches_subscribers {actions : List (OscAct address)}
    {m : OscMessage} {now : Nat} {buf : List UInt8}
    (h : Transition.run (oscStep rosc) OscState.start actions = some s)
    (hstep : oscStep rosc s (.emit m now) = some s')
    (hencode : rosc.encode m = some buf) :
    exists receivers : List address,
      s'.sent = s.sent ++ receivers.map (fun a => (a, buf)) ∧ receivers.Nodup ∧
        forall a, a ∈ receivers <-> Subscribed actions a now := by
  simp only [oscStep] at hstep
  split at hstep
  · next hclock =>
      cases hstep
      exact (run_knows h).receivers hclock hencode
  · cases hstep

/-!
## What a subscriber receives
-/

/-- The datagrams sent to an address. -/
def sentTo (a : address) (s : OscState address command) : List (List UInt8) :=
  (rowsAt Prod.fst a s.sent).map Prod.snd

theorem sentTo_emit {a : address} {buf : List UInt8} {receivers : List address}
    (hsent : s'.sent = s.sent ++ receivers.map fun b => (b, buf))
    (hnodup : receivers.Nodup) (ha : a ∈ receivers) :
    sentTo a s' = sentTo a s ++ [buf] := by
  have hone : rowsAt Prod.fst a (receivers.map fun b => (b, buf)) = [(a, buf)] := by
    have hkeys : ((receivers.map fun b => (b, buf)).map Prod.fst).Nodup := by
      rw [List.map_map]
      exact (List.map_id receivers).symm ▸ hnodup
    exact rowsAt_of_mem hkeys (List.mem_map_of_mem ha)
  unfold sentTo rowsAt at *
  rw [hsent, List.filter_append, hone, List.map_append]
  rfl

/-- An address that is subscribed whenever a message is emitted is sent every
message, in order. -/
theorem sentTo_run {actions : List (OscAct address)} {a : address}
    (hlive : forall pre m now, pre ++ [.emit m now] <+: actions ->
      Subscribed pre a now)
    (hencode : forall m, m ∈ emitted actions -> (rosc.encode m).isSome)
    (h : Transition.run (oscStep rosc) OscState.start actions = some s) :
    sentTo a s = (emitted actions).filterMap rosc.encode := by
  induction actions using List.reverseRecOn generalizing s with
  | nil =>
      cases h
      rfl
  | append_singleton actions act ih =>
      rw [Transition.run_snoc] at h
      rcases Option.bind_eq_some_iff.mp h with ⟨t, ht, hstep⟩
      have hemitted : emitted (actions ++ [act]) =
          emitted actions ++ emitted [act] := List.filterMap_append
      have hbefore : sentTo a t = (emitted actions).filterMap rosc.encode := by
        refine ih ?_ ?_ ht
        · intro pre m now hpre
          exact hlive pre m now (hpre.trans (List.prefix_append _ _))
        · intro m hm
          exact hencode m (hemitted ▸ List.mem_append_left _ hm)
      rw [hemitted, List.filterMap_append, ← hbefore]
      cases oscPerformed_of_step hstep with
      | receive hclock => exact (List.append_nil _).symm
      | queue _ hnone _ _ hsent =>
          rw [hnone, List.filterMap_nil, List.append_nil, sentTo, sentTo, hsent]
      | @emit m now hclock =>
          have hm : (rosc.encode m).isSome := by
            apply hencode m
            rw [hemitted]
            exact List.mem_append_right _ (List.mem_singleton.mpr rfl)
          rcases Option.isSome_iff_exists.mp hm with ⟨buf, hbuf⟩
          rcases (run_knows ht).receivers hclock hbuf with
            ⟨receivers, hsent, hnodup, hmem⟩
          have ha : a ∈ receivers :=
            (hmem a).mpr (hlive actions m now (List.prefix_refl _))
          rw [sentTo_emit hsent hnodup ha,
            show emitted [OscAct.emit m now] = [m] from rfl,
            List.filterMap_cons_some hbuf]
          rfl

theorem filterMap_decode {decode : List UInt8 -> Option OscMessage}
    {messages : List OscMessage}
    (hrosc : forall m, m ∈ messages ->
      exists buf, rosc.encode m = some buf ∧ decode buf = some m) :
    (messages.filterMap rosc.encode).filterMap decode = messages := by
  rw [List.filterMap_filterMap]
  have hsame : messages.filterMap (fun m => (rosc.encode m).bind decode) =
      messages.filterMap some := by
    apply List.filterMap_congr
    intro m hm
    rcases hrosc m hm with ⟨buf, hbuf, hdecode⟩
    rw [hbuf]
    exact hdecode
  rw [hsame, List.filterMap_some]

/-- A client that keeps its subscription alive reads the events that were
broadcast, those without a message apart. -/
theorem client_reads {events : List Event} {actions : List (OscAct address)}
    {a : address} {decode : List UInt8 -> Option OscMessage}
    (hlive : forall pre m now, pre ++ [.emit m now] <+: actions ->
      Subscribed pre a now)
    (hemitted : emitted actions = events.filterMap oscMessage)
    (hrosc : forall m, m ∈ emitted actions ->
      exists buf, rosc.encode m = some buf ∧ decode buf = some m)
    (h : Transition.run (oscStep rosc) OscState.start actions = some s) :
    ((sentTo a s).filterMap decode).filterMap readEvent? =
      events.filter fun e => (oscMessage e).isSome := by
  have hencode : forall m, m ∈ emitted actions -> (rosc.encode m).isSome := by
    intro m hm
    rcases hrosc m hm with ⟨buf, hbuf, -⟩
    rw [hbuf]
    rfl
  rw [sentTo_run hlive hencode h, filterMap_decode hrosc, hemitted]
  exact filterMap_readEvent? events

/-- A client that keeps its subscription alive, decodes what it is sent and
applies it holds the last controls report of the frames whose events were
broadcast. -/
theorem client_mirror_run {opts : OpenOptions} {frames : List (List UInt8)}
    {actions : List (OscAct address)} {a : address}
    {decode : List UInt8 -> Option OscMessage}
    (hlive : forall pre m now, pre ++ [.emit m now] <+: actions ->
      Subscribed pre a now)
    (hemitted : emitted actions = (eventsOf opts frames).filterMap oscMessage)
    (hrosc : forall m, m ∈ emitted actions ->
      exists buf, rosc.encode m = some buf ∧ decode buf = some m)
    (h : Transition.run (oscStep rosc) OscState.start actions = some s) :
    mirror (((sentTo a s).filterMap decode).filterMap readEvent?) =
      latestControls frames := by
  rw [client_reads hlive hemitted hrosc h, mirror_filter]
  exact mirror_eventsOf opts frames

/-- The same client knows the pads that are held: those that a pressure struck
at rest and none since let go, each with the velocity of that pressure. -/
theorem client_pads_run {opts : OpenOptions} {frames : List (List UInt8)}
    {actions : List (OscAct address)} {a : address}
    {decode : List UInt8 -> Option OscMessage} {p : Fin Proto.padCount} {v : UInt8}
    (hraw : opts.rawPadStream = false)
    (hlive : forall pre m now, pre ++ [.emit m now] <+: actions ->
      Subscribed pre a now)
    (hemitted : emitted actions = (eventsOf opts frames).filterMap oscMessage)
    (hrosc : forall m, m ∈ emitted actions ->
      exists buf, rosc.encode m = some buf ∧ decode buf = some m)
    (h : Transition.run (oscStep rosc) OscState.start actions = some s) :
    heldPads (((sentTo a s).filterMap decode).filterMap readEvent?) p = some v <->
      exists before q after, samplesOf p frames = before ++ q :: after ∧
        latched (rises opts) (falls opts) before = false ∧
        opts.padOnThreshold ≤ q ∧
        (forall r, r ∈ after -> opts.padOffThreshold < r) ∧
        pressureToVelocity q = v := by
  rw [client_reads hlive hemitted hrosc h, heldPads_filter]
  exact heldPads_eq_some_iff hraw

end Server

/-- A frame with one button down, and the message of its event. -/
private def buttonFrame : List UInt8 :=
  [1, 0, 0, 0x20] ++ List.replicate 38 0

private def buttonMessage : OscMessage :=
  { addr := utf8 "/mk3/button/21/down"
    args := [] }

/-- The address and the empty type tag, each padded to four bytes. -/
private def buttonPacket : List UInt8 :=
  utf8 "/mk3/button/21/down" ++ [0] ++ utf8 "," ++ [0, 0, 0]

/-- A frame that strikes a pad, and the message of its event. -/
private def padFrame : List UInt8 := [2, 3, 0x00, 0x41]

private def padMessage : OscMessage :=
  { addr := utf8 "/mk3/pad/3/down"
    args := [.int 0x4100, .int 7] }

private def padPacket : List UInt8 :=
  utf8 "/mk3/pad/3/down" ++ [0] ++ utf8 ",ii" ++ [0] ++ [0, 0, 0x41, 0] ++ [0, 0, 0, 7]

private def roscOf (message : OscMessage) (packet : List UInt8) : Rosc Unit where
  encode m := if m = message then some packet else none
  decodeUdp _ := none

private def oneSubscriber (m : OscMessage) : List (OscAct Nat) :=
  [.datagram 7 [] 0, .emit m 5]

private theorem oneSubscriber_live (message : OscMessage) : forall pre m now,
    pre ++ [OscAct.emit m now] <+: oneSubscriber message ->
      Subscribed pre 7 now := by
  intro pre m now hpre
  cases pre with
  | nil => simp [oneSubscriber] at hpre
  | cons act pre =>
      cases pre with
      | nil =>
          simp only [oneSubscriber, List.cons_append, List.nil_append,
            List.cons_prefix_cons] at hpre
          rcases hpre with ⟨rfl, hemit, -⟩
          cases hemit
          exact ⟨0, rfl, by decide⟩
      | cons act' pre => simp [oneSubscriber] at hpre

theorem client_mirror_oneSubscriber :
    exists s, Transition.run (oscStep (roscOf buttonMessage buttonPacket))
        OscState.start (oneSubscriber buttonMessage) = some s ∧
      mirror (((sentTo 7 s).filterMap fun buf =>
          if buf = buttonPacket then some buttonMessage else none).filterMap
        readEvent?) = latestControls [buttonFrame] := by
  have hsome : (Transition.run (oscStep (roscOf buttonMessage buttonPacket))
      OscState.start (oneSubscriber buttonMessage)).isSome = true := by decide
  rcases Option.isSome_iff_exists.mp hsome with ⟨s, hs⟩
  have hemitted : emitted (oneSubscriber buttonMessage) =
      (eventsOf OpenOptions.default [buttonFrame]).filterMap oscMessage := by decide
  refine ⟨s, hs, client_mirror_run (oneSubscriber_live buttonMessage) hemitted ?_ hs⟩
  intro m hm
  cases List.mem_singleton.mp hm
  exact ⟨buttonPacket, by decide, by decide⟩

theorem client_pads_oneSubscriber :
    exists s, Transition.run (oscStep (roscOf padMessage padPacket))
        OscState.start (oneSubscriber padMessage) = some s ∧
      heldPads (((sentTo 7 s).filterMap fun buf =>
          if buf = padPacket then some padMessage else none).filterMap
        readEvent?) 3 = some 7 := by
  have hsome : (Transition.run (oscStep (roscOf padMessage padPacket))
      OscState.start (oneSubscriber padMessage)).isSome = true := by decide
  rcases Option.isSome_iff_exists.mp hsome with ⟨s, hs⟩
  have hemitted : emitted (oneSubscriber padMessage) =
      (eventsOf OpenOptions.default [padFrame]).filterMap oscMessage := by decide
  refine ⟨s, hs, (client_pads_run rfl (oneSubscriber_live padMessage) hemitted ?_
    hs).mpr ⟨[], 0x4100, [], by decide, rfl, by decide, nofun, by decide⟩⟩
  intro m hm
  cases List.mem_singleton.mp hm
  exact ⟨padPacket, by decide, by decide⟩

theorem emit_reaches_oneSubscriber :
    exists (s s' : OscState Nat Unit) (receivers : List Nat),
      oscStep (roscOf buttonMessage buttonPacket) s (.emit buttonMessage 6) =
        some s' ∧
      s'.sent = s.sent ++ receivers.map (fun a => (a, buttonPacket)) ∧
      (7 ∈ receivers <-> Subscribed (oneSubscriber buttonMessage) 7 6) := by
  have hsome : (Transition.run (oscStep (roscOf buttonMessage buttonPacket))
      OscState.start (oneSubscriber buttonMessage ++
        [.emit buttonMessage 6])).isSome = true := by decide
  rcases Option.isSome_iff_exists.mp hsome with ⟨s', hs'⟩
  rw [Transition.run_snoc] at hs'
  rcases Option.bind_eq_some_iff.mp hs' with ⟨s, hs, hstep⟩
  have hencode : (roscOf buttonMessage buttonPacket).encode buttonMessage =
      some buttonPacket := by decide
  rcases emit_reaches_subscribers hs hstep hencode with
    ⟨receivers, hsent, -, hmem⟩
  exact ⟨s, s', receivers, hstep, hsent, hmem 7⟩

end Daemon
end OpenMk3
