import OpenMk3.Index.Watcher

/-!
# Batches of the library watcher

What the watcher's thread has delivered and still holds is what the events named,
and a batch waits for a quiet period.  The thread takes a time-out at once, again
and again, after changes none of which named a preset.
-/

namespace OpenMk3
namespace Index

open Library

/-!
## What has been received
-/

namespace Pass

/-- The message is a change event. -/
def isChange (p : Pass) : Bool :=
  match p.message with
  | .event ev => ev.kind.isChange
  | _ => false

/-- The preset paths of a change event. -/
def received (p : Pass) : List PathBuf :=
  match p.message with
  | .event ev => if ev.kind.isChange then ev.paths.filter isInteresting else []
  | _ => []

theorem received_of_not_change {p : Pass} (h : p.isChange = false) :
    p.received = [] := by
  unfold isChange at h
  unfold received
  split
  · next ev heq =>
      rw [heq] at h
      exact if_neg (by simpa using h)
  · rfl

end Pass

def received (xs : List Pass) : List PathBuf := xs.flatMap Pass.received

/-- When the most recent change event was processed. -/
def lastChange (xs : List Pass) : Option Nat :=
  (xs.filter Pass.isChange).getLast?.map Pass.now

theorem received_snoc (xs : List Pass) (p : Pass) :
    received (xs ++ [p]) = received xs ++ p.received := by
  simp [received]

theorem lastChange_snoc_of_change (xs : List Pass) {p : Pass}
    (h : p.isChange = true) : lastChange (xs ++ [p]) = some p.now := by
  simp [lastChange, h]

theorem lastChange_snoc_of_not_change (xs : List Pass) {p : Pass}
    (h : p.isChange = false) : lastChange (xs ++ [p]) = lastChange xs := by
  simp [lastChange, h]

namespace WatchLoop

variable {debounce lastInstant : Nat} {s s' : WatchLoop} {p : Pass}

/-!
## One pass
-/

/-- What one pass of the loop does. -/
inductive Performed (debounce lastInstant : Nat) (s : WatchLoop) (p : Pass) :
    WatchLoop -> Prop where
  | change : p.isChange = true ->
      Performed debounce lastInstant s p
        (postpone debounce lastInstant
          { s with pending := s.pending ++ p.received } p.now)
  | ignore : p.isChange = false -> p.message ≠ .timeout ->
      Performed debounce lastInstant s p s
  | deliver : p.message = .timeout -> s.pending ≠ [] -> s.due p.now = true ->
      Performed debounce lastInstant s p s.deliver
  | wait : p.message = .timeout -> ¬ (s.pending ≠ [] ∧ s.due p.now = true) ->
      Performed debounce lastInstant s p s
  | disconnect : p.isChange = false -> p.message ≠ .timeout ->
      Performed debounce lastInstant s p { s with ended := true }

theorem performed_of_step (h : step debounce lastInstant s p = some s') :
    s.ended = false ∧ Performed debounce lastInstant s p s' := by
  rcases p with ⟨message, now⟩
  unfold step at h
  split at h
  · cases h
  · next hended =>
      refine ⟨by simpa using hended, ?_⟩
      cases message with
      | event ev =>
          by_cases hkind : ev.kind.isChange = true
          · simp only [if_pos hkind, Option.some.injEq] at h
            have hreceived : Pass.received { message := .event ev, now := now } =
                ev.paths.filter isInteresting := if_pos hkind
            rw [<- h, <- hreceived]
            exact .change hkind
          · simp only [if_neg hkind, Option.some.injEq] at h
            rw [<- h]
            exact .ignore (Bool.eq_false_iff.mpr hkind) (by simp)
      | watchError =>
          cases h
          exact .ignore rfl (by simp)
      | timeout =>
          have hif : (!s.pending.isEmpty && s.due now) = true <->
              s.pending ≠ [] ∧ s.due now = true := by
            simp
          by_cases hdue : s.pending ≠ [] ∧ s.due now = true
          · simp only [if_pos (hif.mpr hdue), Option.some.injEq] at h
            rw [<- h]
            exact .deliver rfl hdue.left hdue.right
          · simp only [if_neg (mt hif.mp hdue), Option.some.injEq] at h
            rw [<- h]
            exact .wait rfl hdue
      | disconnected =>
          cases h
          exact .disconnect rfl (by simp)

theorem isChange_of_timeout (h : p.message = .timeout) : p.isChange = false := by
  rw [Pass.isChange, h]

@[simp] theorem postpone_pending (s : WatchLoop) (now : Nat) :
    (s.postpone debounce lastInstant now).pending = s.pending := by
  unfold postpone
  split <;> rfl

@[simp] theorem postpone_batches (s : WatchLoop) (now : Nat) :
    (s.postpone debounce lastInstant now).batches = s.batches := by
  unfold postpone
  split <;> rfl

/-- Where the thread goes on, the deadline has been set. -/
theorem postpone_deadline {now : Nat}
    (h : (s.postpone debounce lastInstant now).ended = false) :
    (s.postpone debounce lastInstant now).deadline = some (now + debounce) := by
  unfold postpone at h ⊢
  split at h
  · next hle => rw [if_pos hle]
  · cases h

theorem due_iff {now : Nat} :
    s.due now = true <-> exists d, s.deadline = some d ∧ d ≤ now := by
  unfold due
  cases s.deadline with
  | none => simp
  | some d => simp

/-!
## What is kept and delivered
-/

/-- The paths received are those delivered and those pending, and the deadline
is that of the most recent change. -/
structure Batching (debounce : Nat) (xs : List Pass) (s : WatchLoop) : Prop where
  conserved : s.batches.flatten ++ s.pending = Index.received xs
  nonempty : forall batch, batch ∈ s.batches -> batch ≠ []
  quiet : s.ended = false -> forall d, s.deadline = some d ->
    exists changed, lastChange xs = some changed ∧ d = changed + debounce

/-- A pass that is no change event leaves the history of changes alone. -/
theorem Batching.other {xs : List Pass} (h : Batching debounce xs s)
    (hended : s.ended = false) (hp : p.isChange = false) (ended : Bool) :
    Batching debounce (xs ++ [p]) { s with ended := ended } := by
  constructor
  · rw [received_snoc, Pass.received_of_not_change hp, List.append_nil]
    exact h.conserved
  · exact h.nonempty
  · intro _ d hd
    rw [lastChange_snoc_of_not_change xs hp]
    exact h.quiet hended d hd

theorem Batching.step {xs : List Pass} (h : Batching debounce xs s)
    (hstep : step debounce lastInstant s p = some s') :
    Batching debounce (xs ++ [p]) s' := by
  rcases performed_of_step hstep with ⟨hended, hdone⟩
  cases hdone with
  | change hp =>
      constructor
      · rw [postpone_batches, postpone_pending, received_snoc, <- h.conserved,
          List.append_assoc]
      · rw [postpone_batches]
        exact h.nonempty
      · intro hlive d hd
        rw [postpone_deadline hlive] at hd
        cases hd
        exact ⟨p.now, lastChange_snoc_of_change xs hp, rfl⟩
  | ignore hp _ =>
      have hkept := h.other hended hp s.ended
      exact hkept
  | deliver hp hpending hdue =>
      constructor
      · rw [received_snoc, Pass.received_of_not_change (isChange_of_timeout hp),
          List.append_nil, <- h.conserved]
        simp [WatchLoop.deliver]
      · intro batch hbatch
        rcases List.mem_append.mp hbatch with hbatch | hbatch
        · exact h.nonempty batch hbatch
        · rw [List.mem_singleton.mp hbatch]
          exact hpending
      · intro _ d hd
        cases hd
  | wait hp _ =>
      have hkept := h.other hended (isChange_of_timeout hp) s.ended
      exact hkept
  | disconnect hp _ =>
      exact h.other hended hp true

theorem batching_start : Batching debounce [] start where
  conserved := rfl
  nonempty := by
    intro batch hbatch
    cases hbatch
  quiet := by
    intro _ d hd
    cases hd

theorem batching_of_run {xs : List Pass}
    (hrun : Transition.run (step debounce lastInstant) start xs = some s) :
    Batching debounce xs s :=
  Transition.along_invariant (fun _ _ _ _ => True) batching_start
    (fun _ _ _ _ h hstep _ => h.step hstep) (fun _ _ _ _ _ _ _ => trivial) hrun

/-- A pass that calls `on_batch`, at least `debounce` after the last change. -/
def DeliversQuietly (debounce : Nat) (xs : List Pass) (s : WatchLoop) (p : Pass)
    (s' : WatchLoop) : Prop :=
  s'.batches = s.batches ++ [s.pending] ∧
    exists changed, lastChange xs = some changed ∧ changed + debounce ≤ p.now

/-- The loop ends with the pass: the channel is closed, or the thread panics. -/
def Ends (debounce lastInstant : Nat) (p : Pass) : Prop :=
  p.message = .disconnected ∨ p.isChange = true ∧ lastInstant < p.now + debounce

/-- A loop that has not ended takes any message, and goes on unless the pass ends
it. -/
theorem exists_step (debounce lastInstant : Nat) (hended : s.ended = false) (p : Pass) :
    exists s', step debounce lastInstant s p = some s' ∧
      (s'.ended = true -> Ends debounce lastInstant p) := by
  have hsame : s.ended = true -> Ends debounce lastInstant p := by
    intro htrue
    cases hended.symm.trans htrue
  rcases p with ⟨message, now⟩
  unfold step
  rw [if_neg (by simp [hended])]
  cases message with
  | event ev =>
      by_cases hkind : ev.kind.isChange = true
      · refine ⟨_, if_pos hkind, ?_⟩
        intro htrue
        refine .inr ⟨hkind, Nat.lt_of_not_le fun hle => ?_⟩
        rw [postpone, if_pos hle] at htrue
        cases hended.symm.trans htrue
      · exact ⟨s, if_neg hkind, hsame⟩
  | watchError => exact ⟨s, rfl, hsame⟩
  | timeout =>
      by_cases hdue : (!s.pending.isEmpty && s.due now) = true
      · exact ⟨s.deliver, if_pos hdue, hsame⟩
      · exact ⟨s, if_neg hdue, hsame⟩
  | disconnected => exact ⟨_, rfl, fun _ => .inl rfl⟩

/-- The loop takes any messages up to the one that ends it. -/
theorem exists_run (debounce lastInstant : Nat) (xs : List Pass)
    (hxs : forall pre p rest, xs = pre ++ p :: rest -> Ends debounce lastInstant p ->
      rest = []) :
    exists s, Transition.run (step debounce lastInstant) start xs = some s ∧
      (s.ended = true -> exists p, p ∈ xs ∧ Ends debounce lastInstant p) := by
  induction xs using List.reverseRecOn with
  | nil => exact ⟨start, rfl, nofun⟩
  | append_singleton xs p ih =>
      have hno : forall q, q ∈ xs -> ¬ Ends debounce lastInstant q := by
        intro q hq hends
        rcases List.append_of_mem hq with ⟨pre, rest, rfl⟩
        have hrest := hxs pre q (rest ++ [p]) (by simp) hends
        simp at hrest
      rcases ih fun pre q rest heq hends =>
          absurd hends (hno q (heq ▸ List.mem_append_right pre List.mem_cons_self)) with
        ⟨t, ht, hlive⟩
      have hended : t.ended = false := by
        cases hended : t.ended with
        | false => rfl
        | true =>
            rcases hlive hended with ⟨q, hq, hends⟩
            exact absurd hends (hno q hq)
      rcases exists_step debounce lastInstant hended p with ⟨s, hs, hends⟩
      refine ⟨s, ?_, ?_⟩
      · rw [Transition.run_snoc, ht]
        exact hs
      · intro htrue
        exact ⟨p, List.mem_append_right xs (List.mem_singleton.mpr rfl), hends htrue⟩

/-- On every sequence of messages up to the one that ends the loop: the loop takes
them all; what has been delivered and what is pending are the preset paths received,
no batch is empty, and a pass leaves the batches as they are or delivers the pending
paths after a quiet period. -/
theorem batches_follow_events (debounce lastInstant : Nat) (xs : List Pass)
    (hxs : forall pre p rest, xs = pre ++ p :: rest -> Ends debounce lastInstant p ->
      rest = []) :
    exists s, Transition.run (step debounce lastInstant) start xs = some s ∧
      s.batches.flatten ++ s.pending = Index.received xs ∧
      (forall batch, batch ∈ s.batches -> batch ≠ []) ∧
      Transition.Along (step debounce lastInstant) start
        (fun pre t p t' => t'.batches = t.batches ∨
          DeliversQuietly debounce pre t p t')
        xs := by
  rcases exists_run debounce lastInstant xs hxs with ⟨s, hrun, -⟩
  have hbatching := batching_of_run hrun
  refine ⟨s, hrun, hbatching.conserved, hbatching.nonempty, ?_⟩
  intro pre p t t' _ hpre hstep
  rcases performed_of_step hstep with ⟨hended, hdone⟩
  cases hdone with
  | change _ => exact Or.inl (postpone_batches _ _)
  | ignore _ _ => exact Or.inl rfl
  | deliver _ _ hdue =>
      rcases due_iff.mp hdue with ⟨d, hd, hle⟩
      rcases (batching_of_run hpre).quiet hended d hd with ⟨changed, hlast, heq⟩
      refine Or.inr ⟨rfl, changed, hlast, ?_⟩
      rw [<- heq]
      exact hle
  | wait _ _ => exact Or.inl rfl
  | disconnect _ _ => exact Or.inl rfl

/-- A preset is saved, its batch goes out half a second later, and the watcher is
dropped. -/
def savedPreset : List Pass :=
  [{ message := .event { kind := .modify, paths := [[dot :: nksf, 97 :: dot :: nksf]] },
     now := 1000000000 },
   { message := .timeout, now := 1500000000 },
   { message := .disconnected, now := 1600000000 }]

/-- Only the last message ends the loop. -/
theorem ends_savedPreset (pre : List Pass) (p : Pass) (rest : List Pass)
    (h : savedPreset = pre ++ p :: rest) (hends : Ends 500000000 (2 ^ 63) p) :
    rest = [] := by
  rcases pre with _ | ⟨p1, _ | ⟨p2, _ | ⟨p3, pre⟩⟩⟩ <;>
    simp only [savedPreset, List.nil_append, List.cons_append, List.cons.injEq] at h
  · rcases h with ⟨rfl, -⟩
    simp [Ends, Pass.isChange, EventKind.isChange] at hends
  · rcases h with ⟨-, rfl, -⟩
    simp [Ends, Pass.isChange] at hends
  · exact h.right.right.right.symm
  · simp at h

theorem batches_follow_savedPreset :
    exists s, Transition.run (step 500000000 (2 ^ 63)) start savedPreset = some s ∧
      s.batches = [[[dot :: nksf, 97 :: dot :: nksf]]] ∧ s.pending = [] ∧
      s.batches.flatten ++ s.pending = Index.received savedPreset := by
  rcases batches_follow_events 500000000 (2 ^ 63) savedPreset ends_savedPreset with
    ⟨s, hrun, hreceived, -⟩
  refine ⟨s, hrun, ?_, ?_, hreceived⟩
  · cases hrun
    decide
  · cases hrun
    decide

/-!
## Time-outs
-/

/-- After a time-out a batch has gone out, or the loop waits before the next. -/
def MovesOn (s : WatchLoop) (p : Pass) (s' : WatchLoop) : Prop :=
  p.message = .timeout ->
    (exists batch, s'.batches = s.batches ++ [batch]) ∨ 0 < s'.timeout p.now

/-- The last change of a burst is at least `debounce` ago. -/
def QuietAt (debounce : Nat) (burst : List Pass) (now : Nat) : Prop :=
  exists last, burst.getLast? = some last ∧ last.now + debounce ≤ now

instance (debounce : Nat) (burst : List Pass) (now : Nat) :
    Decidable (QuietAt debounce burst now) :=
  decidable_of_iff (burst.getLast?.any fun last => last.now + debounce ≤ now) <| by
    simp [QuietAt, Option.any_eq_true]

/-- A change prolongs a burst; a time-out after a quiet period ends it. -/
def extend (debounce : Nat) (burst : List Pass) (p : Pass) : List Pass :=
  if p.isChange then burst ++ [p]
  else if p.message = .timeout ∧ QuietAt debounce burst p.now then []
  else burst

/-- The changes since the last time-out that came after a quiet period. -/
def burst (debounce : Nat) (xs : List Pass) : List Pass :=
  xs.foldl (extend debounce) []

/-- A burst that a time-out ends has named a preset. -/
def EndsWithPreset (debounce : Nat) (burst : List Pass) (p : Pass) : Prop :=
  p.message = .timeout -> QuietAt debounce burst p.now ->
    exists q, q ∈ burst ∧ q.received ≠ []

/-- The loop holds the paths of the burst and waits from its last change on. -/
structure Follows (debounce : Nat) (burst : List Pass) (s : WatchLoop) : Prop where
  pending : s.pending = Index.received burst
  deadline : s.ended = false ->
    s.deadline = burst.getLast?.map fun last => last.now + debounce

theorem Follows.due_iff {burst : List Pass} (h : Follows debounce burst s)
    (hended : s.ended = false) {now : Nat} :
    s.due now = true <-> QuietAt debounce burst now := by
  rw [WatchLoop.due_iff, h.deadline hended]
  unfold QuietAt
  constructor
  · rintro ⟨d, hd, hle⟩
    rcases Option.map_eq_some_iff.mp hd with ⟨last, hlast, rfl⟩
    exact ⟨last, hlast, hle⟩
  · rintro ⟨last, hlast, hle⟩
    exact ⟨_, Option.map_eq_some_iff.mpr ⟨last, hlast, rfl⟩, hle⟩

theorem Follows.pending_iff {burst : List Pass} (h : Follows debounce burst s) :
    s.pending ≠ [] <-> exists q, q ∈ burst ∧ q.received ≠ [] := by
  simp only [h.pending, Index.received, ne_eq, List.flatMap_eq_nil_iff, not_forall,
    exists_prop]

/-- A loop that is not due waits for a positive time. -/
theorem timeout_pos_iff {now : Nat} :
    0 < s.timeout now <-> ¬ s.due now = true := by
  unfold timeout due
  cases s.deadline with
  | none => simp [idleTimeout]
  | some d =>
      simp only [decide_eq_true_eq]
      omega

theorem Follows.movesOn_iff {burst : List Pass} (h : Follows debounce burst s)
    (hstep : step debounce lastInstant s p = some s') :
    s.MovesOn p s' <-> EndsWithPreset debounce burst p := by
  rcases performed_of_step hstep with ⟨hended, hdone⟩
  unfold MovesOn EndsWithPreset
  refine forall_congr' fun hp => ?_
  rw [<- h.due_iff hended, <- h.pending_iff]
  cases hdone with
  | change hchange =>
      rw [isChange_of_timeout hp] at hchange
      cases hchange
  | ignore _ hno => exact absurd hp hno
  | deliver _ hpending _ =>
      exact iff_of_true (Or.inl ⟨_, rfl⟩) fun _ => hpending
  | wait _ hno =>
      rw [timeout_pos_iff]
      constructor
      · rintro (⟨batch, hbatch⟩ | hdue) hdue'
        · simp at hbatch
        · exact absurd hdue' hdue
      · intro hpending
        exact Or.inr fun hdue => hno ⟨hpending hdue, hdue⟩
  | disconnect _ hno => exact absurd hp hno

theorem extend_of_change {burst : List Pass} (hp : p.isChange = true) :
    extend debounce burst p = burst ++ [p] :=
  if_pos hp

theorem extend_of_other {burst : List Pass} (hp : p.isChange = false)
    (hno : p.message ≠ .timeout) : extend debounce burst p = burst := by
  rw [extend, hp, if_neg (by simp), if_neg (fun h => hno h.left)]

/-- A burst is followed as long as the time-outs that end one deliver it. -/
theorem Follows.step {burst : List Pass} (h : Follows debounce burst s)
    (hstep : step debounce lastInstant s p = some s')
    (hok : EndsWithPreset debounce burst p) :
    Follows debounce (extend debounce burst p) s' := by
  rcases performed_of_step hstep with ⟨hended, hdone⟩
  cases hdone with
  | change hp =>
      rw [extend_of_change hp]
      constructor
      · rw [postpone_pending, received_snoc, h.pending]
      · intro hlive
        rw [postpone_deadline hlive, List.getLast?_concat]
        rfl
  | ignore hp hno =>
      rw [extend_of_other hp hno]
      exact h
  | deliver hp _ hdue =>
      have hquiet := (h.due_iff hended).mp hdue
      rw [extend, isChange_of_timeout hp, if_neg (by simp), if_pos ⟨hp, hquiet⟩]
      exact ⟨rfl, fun _ => rfl⟩
  | wait hp hno =>
      have hbusy : ¬ QuietAt debounce burst p.now := fun hquiet =>
        hno ⟨h.pending_iff.mpr (hok hp hquiet), (h.due_iff hended).mpr hquiet⟩
      rw [extend, isChange_of_timeout hp, if_neg (by simp),
        if_neg (fun hends => hbusy hends.right)]
      exact h
  | disconnect hp hno =>
      rw [extend_of_other hp hno]
      refine ⟨h.pending, ?_⟩
      intro hlive
      cases hlive

/-- Along every run: no time-out leaves the loop where it was, with nothing
delivered and no time to wait, exactly when every burst that a time-out ends has
named a preset. -/
theorem movesOn_throughout_iff (debounce lastInstant : Nat) (xs : List Pass) :
    Transition.Along (step debounce lastInstant) start
        (fun _ s p s' => s.MovesOn p s') xs <->
      Transition.Along (step debounce lastInstant) start
        (fun pre _ p _ => EndsWithPreset debounce (burst debounce pre) p) xs := by
  refine Transition.along_iff_along
    (fun pre s => Follows debounce (burst debounce pre) s) ?_ ?_ ?_ xs
  · exact ⟨rfl, fun _ => rfl⟩
  · intro pre s p s' h hstep
    exact h.movesOn_iff hstep
  · intro pre s p s' h hstep hok
    rw [burst, List.foldl_concat]
    exact h.step hstep hok

/-- The clock of a run never goes back. -/
def NonDecreasing (xs : List Pass) : Prop :=
  xs.Pairwise fun p q => p.now ≤ q.now

/-- A text file is saved next to the presets, and half a second passes. -/
def savedNote : List Pass :=
  [{ message := .event { kind := .modify, paths := [[[97, dot, 116, 120, 116]]] },
     now := 1000000000 },
   { message := .timeout, now := 1500000000 }]

theorem savedNote_spins :
    ¬ forall debounce lastInstant xs, 0 < debounce -> NonDecreasing xs ->
      Transition.Along (step debounce lastInstant) start
        (fun _ s p s' => s.MovesOn p s') xs := by
  intro h
  have hclock : NonDecreasing savedNote := by
    simp [NonDecreasing, savedNote]
  have hmoves := h 500000000 (2 ^ 63) savedNote (by decide) hclock
  have hlast := hmoves (savedNote.take 1) { message := .timeout, now := 1500000000 }
    _ _ (List.prefix_refl _) rfl rfl rfl
  rcases hlast with ⟨batch, hbatch⟩ | hwait
  · cases hbatch
  · exact absurd hwait (by decide)

end WatchLoop

end Index
end OpenMk3
