import OpenMk3.Device.PadProtocol

/-!
# Jitter filter

The filter of a held pad compares each sample with the sample before it, not
with the pressure it delivered last.  The two agree on samples that are as far
from the reference of their press as from their predecessor.
-/

namespace OpenMk3
namespace Device

open Library Proto

/-- The pressure that an attack or a pressure event delivered last. -/
def delivered (events : List PadEvent) : Option UInt16 :=
  ((events.filter fun e => decide (e.phase ≠ .release)).getLast?).map
    PadEvent.pressure

theorem absDiff_self (q : UInt16) : absDiff q q = 0 := by
  simp [absDiff]

theorem absDiff_comm (a b : UInt16) : absDiff a b = absDiff b a := by
  unfold absDiff
  omega

/-!
## References
-/

/--
Where the samples of a pad stand: whether it is on, its last sample, and the
reference of the press, which is the latest sample that moved by the step from
the one before it, or the first sample when none did.
-/
structure Reference where
  on : Bool
  last : UInt16
  value : UInt16
  moved : Bool
deriving DecidableEq, Repr

namespace Reference

def start : Reference :=
  { on := false, last := 0, value := 0, moved := false }

def next (opts : OpenOptions) (r : Reference) (q : UInt16) : Reference :=
  let on := latch (rises opts) (falls opts) r.on q
  if r.on = true ∧ on = true then
    if opts.padPressureStep.toNat ≤ absDiff q r.last then
      { on := on, last := q, value := q, moved := true }
    else { r with on := on, last := q }
  else { on := on, last := q, value := q, moved := false }

def after (opts : OpenOptions) (qs : List UInt16) : Reference :=
  qs.foldl (next opts) start

theorem after_snoc (opts : OpenOptions) (qs : List UInt16) (q : UInt16) :
    after opts (qs ++ [q]) = next opts (after opts qs) q := by
  rw [after, List.foldl_append]
  rfl

theorem next_on (opts : OpenOptions) (r : Reference) (q : UInt16) :
    (next opts r q).on = latch (rises opts) (falls opts) r.on q := by
  unfold next
  simp only
  split_ifs <;> rfl

theorem next_last (opts : OpenOptions) (r : Reference) (q : UInt16) :
    (next opts r q).last = q := by
  unfold next
  simp only
  split_ifs <;> rfl

theorem next_of_moved {opts : OpenOptions} {r : Reference} {q : UInt16}
    (hon : r.on = true) (hnext : (next opts r q).on = true)
    (hmove : opts.padPressureStep.toNat ≤ absDiff q r.last) :
    next opts r q = { on := true, last := q, value := q, moved := true } := by
  rw [next_on, hon] at hnext
  simp [next, hnext, hon, hmove]

theorem next_of_still {opts : OpenOptions} {r : Reference} {q : UInt16}
    (hon : r.on = true) (hnext : (next opts r q).on = true)
    (hmove : ¬ opts.padPressureStep.toNat ≤ absDiff q r.last) :
    next opts r q = { r with last := q } := by
  rw [next_on, hon] at hnext
  simp [next, hnext, hon, hmove]

/-- The first sample of a press is its reference. -/
theorem next_of_first {opts : OpenOptions} {r : Reference} {q : UInt16}
    (hoff : r.on = false) (hnext : (next opts r q).on = true) :
    next opts r q = { on := true, last := q, value := q, moved := false } := by
  rw [next_on, hoff] at hnext
  simp [next, hnext, hoff]

end Reference

/--
Every sample of a held pad that moves less than the step from the sample before
it also stays within the step of the reference, and one that moves by the step
is that far from the reference too, when the reference itself moved.
-/
def Settled (opts : OpenOptions) (qs : List UInt16) : Prop :=
  forall pre q, pre ++ [q] <+: qs ->
    let r := Reference.after opts pre
    r.on = true -> (Reference.next opts r q).on = true ->
      (absDiff q r.last < opts.padPressureStep.toNat ->
        absDiff q r.value < opts.padPressureStep.toNat) ∧
      (opts.padPressureStep.toNat ≤ absDiff q r.last -> r.moved = true ->
        opts.padPressureStep.toNat ≤ absDiff q r.value)

/-!
## The reference of a run
-/

section Filtered

variable {opts : OpenOptions} (hraw : opts.rawPadStream = false)

/-- The reference agrees with the filter, and is what it delivered last. -/
structure Follows (r : Reference) (s : PadState)
    (events : List PadEvent) : Prop where
  on : r.on = s.on
  last : r.last = s.pressure
  event : s.on = true -> exists front e, events = front ++ [e] ∧
    e.pressure = r.value ∧
      e.phase = if r.moved = true then .pressure else .attack

include hraw in
theorem padStep_held {s : PadState} {q : UInt16} (hon : s.on = true)
    (hheld : (padStep opts s q).1.on = true) :
    (padStep opts s q).2 =
      if opts.padPressureStep.toNat ≤ absDiff q s.pressure then
        [{ pressure := q, velocity := none, phase := .pressure }]
      else [] := by
  rcases padStep_cases hraw s q with ⟨h, _⟩ | ⟨h, _⟩ | ⟨_, _, hstep⟩ |
    ⟨_, _, hstep⟩
  · rw [hon] at h
    cases h
  · rw [hon] at h
    cases h
  · rw [hstep] at hheld
    cases hheld
  · rw [hstep]

include hraw in
theorem padStep_pressure (s : PadState) (q : UInt16) :
    (padStep opts s q).1.pressure = q := by
  rcases padStep_cases hraw s q with ⟨_, _, hstep⟩ | ⟨_, _, hstep⟩ |
    ⟨_, _, hstep⟩ | ⟨_, _, hstep⟩ <;>
  rw [hstep]

include hraw in
theorem padStep_attack {s : PadState} {q : UInt16} (hoff : s.on = false)
    (hon : (padStep opts s q).1.on = true) :
    (padStep opts s q).2 = [attackOf q] := by
  rcases padStep_cases hraw s q with ⟨_, _, hstep⟩ | ⟨h, _, hstep⟩ |
    ⟨h, _⟩ | ⟨h, _⟩
  · rw [hstep]
    rfl
  · rw [hstep, h] at hon
    cases hon
  · rw [hoff] at h
    cases h
  · rw [hoff] at h
    cases h

include hraw in
theorem follows_step {r : Reference} {s : PadState} {events : List PadEvent}
    (h : Follows r s events) (q : UInt16) :
    Follows (Reference.next opts r q) (padStep opts s q).1
      (events ++ (padStep opts s q).2) := by
  have hnext : (Reference.next opts r q).on = (padStep opts s q).1.on := by
    rw [Reference.next_on, padStep_on hraw, h.on]
  refine ⟨hnext, ?_, ?_⟩
  · rw [Reference.next_last, padStep_pressure hraw]
  · intro hheld
    have hr := hnext.trans hheld
    cases hon : s.on with
    | false =>
        refine ⟨events, attackOf q, by rw [padStep_attack hraw hon hheld], ?_⟩
        rw [Reference.next_of_first (h.on.trans hon) hr]
        exact ⟨rfl, rfl⟩
    | true =>
        rw [padStep_held hraw hon hheld, ← h.last]
        by_cases hmove : opts.padPressureStep.toNat ≤ absDiff q r.last
        · rw [if_pos hmove, Reference.next_of_moved (h.on.trans hon) hr hmove]
          exact ⟨events, _, rfl, rfl, rfl⟩
        · rw [if_neg hmove, Reference.next_of_still (h.on.trans hon) hr hmove,
            List.append_nil]
          exact h.event hon

include hraw in
theorem follows_run (qs : List UInt16) :
    Follows (Reference.after opts qs)
      (Transducer.final (padStep opts) PadState.default qs)
      (Transducer.trace (padStep opts) PadState.default qs) := by
  refine @Transducer.run_induction _ _ _ (padStep opts) PadState.default
    (fun qs s events => Follows (Reference.after opts qs) s events) ?_ ?_ qs
  · exact ⟨rfl, rfl, nofun⟩
  · intro qs q h
    rw [Reference.after_snoc]
    exact follows_step hraw h q

theorem delivered_snoc (front : List PadEvent) {e : PadEvent}
    (h : e.phase ≠ .release) :
    delivered (front ++ [e]) = some e.pressure := by
  rw [delivered, List.filter_append]
  simp [h]

include hraw in
theorem length_padStep_le (s : PadState) (q : UInt16) :
    (padStep opts s q).2.length ≤ 1 := by
  rcases padStep_cases hraw s q with ⟨_, _, hstep⟩ | ⟨_, _, hstep⟩ |
    ⟨_, _, hstep⟩ | ⟨_, _, hstep⟩
  · rw [hstep]
    exact Nat.le_refl 1
  · rw [hstep]
    exact Nat.zero_le 1
  · rw [hstep]
    exact Nat.le_refl 1
  · rw [hstep]
    simp only
    split
    · exact Nat.le_refl 1
    · exact Nat.zero_le 1

include hraw in
theorem held_of_pressure {s : PadState} {q : UInt16} {e : PadEvent}
    (h : (padStep opts s q).2 = [e]) (hphase : e.phase = .pressure) :
    s.on = true ∧ (padStep opts s q).1.on = true ∧ e.pressure = q ∧
      opts.padPressureStep.toNat ≤ absDiff q s.pressure := by
  rcases padStep_cases hraw s q with ⟨_, _, hstep⟩ | ⟨_, _, hstep⟩ |
    ⟨_, _, hstep⟩ | ⟨hon, _, hstep⟩
  · rw [hstep] at h
    rw [← (List.cons.inj h).left] at hphase
    cases hphase
  · rw [hstep] at h
    cases h
  · rw [hstep] at h
    rw [← (List.cons.inj h).left] at hphase
    cases hphase
  · rw [hstep] at h
    simp only at h
    split at h
    · rename_i hmove
      rw [hstep, ← (List.cons.inj h).left]
      exact ⟨hon, hon, rfl, hmove⟩
    · cases h

/-!
## The filter against its reference
-/

/-- What the jitter filter promises for one pad. -/
structure Steady (opts : OpenOptions) (qs : List UInt16) : Prop where
  near : forall pre q, pre ++ [q] <+: qs ->
    (Transducer.final (padStep opts) PadState.default pre).on = true ->
    (Transducer.final (padStep opts) PadState.default (pre ++ [q])).on = true ->
      exists d, delivered (Transducer.trace (padStep opts) PadState.default
          (pre ++ [q])) = some d ∧
        absDiff d q < opts.padPressureStep.toNat
  apart : forall front a b back,
    Transducer.trace (padStep opts) PadState.default qs =
      front ++ a :: b :: back ->
    a.phase = .pressure -> b.phase = .pressure ->
      opts.padPressureStep.toNat ≤ absDiff a.pressure b.pressure

include hraw in
theorem settled_of_steady {qs : List UInt16} (h : Steady opts qs) :
    Settled opts qs := by
  intro pre q hpre r hon hnext
  have hfollows := follows_run hraw pre
  have hs := hfollows.on.symm.trans hon
  have hheld : (padStep opts (Transducer.final (padStep opts)
      PadState.default pre) q).1.on = true := by
    rw [padStep_on hraw, ← hfollows.on, ← Reference.next_on]
    exact hnext
  rcases hfollows.event hs with ⟨front, e, hevents, hpressure, hphase⟩
  have hstep := padStep_held hraw hs hheld
  rw [← hfollows.last] at hstep
  constructor
  · intro hstill
    rw [if_neg (Nat.not_le.mpr hstill)] at hstep
    have hedge : e.phase ≠ .release := by
      rw [hphase]
      split <;> exact nofun
    rcases h.near pre q hpre hs (by rw [Transducer.final_snoc]; exact hheld)
      with ⟨d, hd, hnear⟩
    rw [Transducer.trace_snoc, hstep, List.append_nil, hevents,
      delivered_snoc front hedge, hpressure] at hd
    rw [absDiff_comm, Option.some.inj hd]
    exact hnear
  · intro hmove hmoved
    rw [if_pos hmove] at hstep
    rw [if_pos hmoved] at hphase
    rcases hpre with ⟨post, hpost⟩
    have htrace : Transducer.trace (padStep opts) PadState.default qs =
        front ++ e :: { pressure := q, velocity := none, phase := .pressure } ::
          Transducer.trace (padStep opts) (Transducer.final (padStep opts)
            PadState.default (pre ++ [q])) post := by
      rw [← hpost, Transducer.trace_append, Transducer.trace_snoc, hstep,
        hevents]
      simp
    have hapart := h.apart front e _ _ htrace hphase rfl
    rw [hpressure] at hapart
    rw [absDiff_comm]
    exact hapart

include hraw in
theorem steady_of_settled (hpos : 1 ≤ opts.padPressureStep.toNat)
    {qs : List UInt16} (h : Settled opts qs) : Steady opts qs := by
  constructor
  · intro pre q hpre hs hs'
    have hfollows := follows_run hraw pre
    rw [Transducer.final_snoc] at hs'
    have hnext : (Reference.next opts (Reference.after opts pre) q).on =
        true := by
      rw [Reference.next_on, hfollows.on, ← padStep_on hraw]
      exact hs'
    have hsettled := (h pre q hpre (hfollows.on.trans hs) hnext).left
    have hstep := padStep_held hraw hs hs'
    rw [← hfollows.last] at hstep
    rw [Transducer.trace_snoc, hstep]
    split
    · refine ⟨q, delivered_snoc _ nofun, ?_⟩
      rw [absDiff_self]
      exact hpos
    · rename_i hstill
      rcases hfollows.event hs with ⟨front, e, hevents, hpressure, hphase⟩
      have hedge : e.phase ≠ .release := by
        rw [hphase]
        split <;> exact nofun
      rw [List.append_nil, hevents, delivered_snoc front hedge, hpressure]
      refine ⟨_, rfl, ?_⟩
      rw [absDiff_comm]
      exact hsettled (Nat.not_le.mp hstill)
  · intro front a b back htrace ha hb
    have hsplit : front ++ a :: b :: back = (front ++ [a]) ++ b :: back := by
      simp
    rw [hsplit] at htrace
    rcases Transducer.exists_step_of_trace_eq (length_padStep_le hraw) htrace
      with ⟨pre, q, post, hqs, hpre, hstep⟩
    rcases held_of_pressure hraw hstep hb with ⟨hs, hs', hq, hmove⟩
    have hfollows := follows_run hraw pre
    rcases hfollows.event hs with ⟨front', e, hevents, hpressure, hphase⟩
    have hae : a = e := by
      rw [hpre] at hevents
      exact List.cons.inj (List.append_inj' hevents rfl).right |>.left
    have hmoved : (Reference.after opts pre).moved = true := by
      rw [hae, hphase] at ha
      split at ha
      · assumption
      · cases ha
    have hnext : (Reference.next opts (Reference.after opts pre) q).on =
        true := by
      rw [Reference.next_on, hfollows.on, ← padStep_on hraw]
      exact hs'
    have hprefix : pre ++ [q] <+: qs := ⟨post, by rw [hqs]; simp⟩
    have hsettled := (h pre q hprefix (hfollows.on.trans hs) hnext).right
    rw [hq, hae, hpressure, absDiff_comm]
    exact hsettled (by rw [hfollows.last]; exact hmove) hmoved

end Filtered

/-!
## The filter of the task
-/

/--
The jitter filter for one pad: right after each sample of the held pad, the
pressure delivered last is within the step of the sample, and consecutive
pressure events differ by the step.
-/
structure JitterFiltered (opts : OpenOptions) (p : Fin padCount)
    (samples : List PadSample) : Prop where
  near : forall pre q, pre ++ [{ pad := p, pressure := q }] <+: samples ->
    (Transducer.final (emitPadSample opts) DiffState.default pre).padOn.get p =
      true ->
    (Transducer.final (emitPadSample opts) DiffState.default
      (pre ++ [{ pad := p, pressure := q }])).padOn.get p = true ->
    exists d, delivered (padEvents p (Transducer.trace (emitPadSample opts)
        DiffState.default (pre ++ [{ pad := p, pressure := q }]))) = some d ∧
      absDiff d q < opts.padPressureStep.toNat
  apart : forall front a b back,
    padEvents p (Transducer.trace (emitPadSample opts) DiffState.default
      samples) = front ++ a :: b :: back ->
    a.phase = .pressure -> b.phase = .pressure ->
      opts.padPressureStep.toNat ≤ absDiff a.pressure b.pressure

/-- The filter of a pad sees the samples of that pad. -/
theorem jitterFiltered_iff_steady (opts : OpenOptions) (p : Fin padCount)
    (samples : List PadSample) :
    JitterFiltered opts p samples <-> Steady opts (pressuresOf p samples) := by
  have hon : forall xs, (Transducer.final (emitPadSample opts)
      DiffState.default xs).padOn.get p =
        (Transducer.final (padStep opts) PadState.default
          (pressuresOf p xs)).on := by
    intro xs
    rw [← padView_default p, ← padView_final_samples]
    rfl
  have hevents : forall xs, padEvents p (Transducer.trace (emitPadSample opts)
      DiffState.default xs) =
        Transducer.trace (padStep opts) PadState.default
          (pressuresOf p xs) := by
    intro xs
    rw [padEvents_trace_samples, padView_default]
  constructor
  · intro h
    refine ⟨?_, ?_⟩
    · intro pre q hpre
      rcases hpre with ⟨post, hpost⟩
      rw [List.append_assoc, List.singleton_append] at hpost
      rcases exists_sample_of_pressures hpost.symm with
        ⟨front, back, hsamples, hfront, _⟩
      have hnear := h.near front q ⟨back, by rw [hsamples]; simp⟩
      rw [hon, hon, hevents, pressuresOf_append, pressuresOf_singleton,
        hfront] at hnear
      exact hnear
    · have hapart := h.apart
      rw [hevents] at hapart
      exact hapart
  · intro h
    refine ⟨?_, ?_⟩
    · intro pre q hpre
      rcases hpre with ⟨post, hpost⟩
      rw [hon, hon, hevents, pressuresOf_append, pressuresOf_singleton]
      apply h.near (pressuresOf p pre) q
      refine ⟨pressuresOf p post, ?_⟩
      rw [← hpost, pressuresOf_append, pressuresOf_append,
        pressuresOf_singleton]
    · rw [hevents]
      exact h.apart

/-- The filter keeps its promise exactly on settled samples. -/
theorem jitterFiltered_iff_settled {opts : OpenOptions}
    (hraw : opts.rawPadStream = false)
    (hpos : 1 ≤ opts.padPressureStep.toNat) (samples : List PadSample)
    (p : Fin padCount) :
    JitterFiltered opts p samples <-> Settled opts (pressuresOf p samples) := by
  rw [jitterFiltered_iff_steady]
  exact ⟨settled_of_steady hraw, steady_of_settled hraw hpos⟩

/-- A press that jumps once is filtered. -/
theorem jitterFiltered_jump :
    JitterFiltered OpenOptions.default 1
      [{ pad := 1, pressure := 0x4100 }, { pad := 1, pressure := 0x4200 }] := by
  apply (jitterFiltered_iff_settled rfl (by decide) _ 1).mpr
  intro pre q hpre
  have hpressures : pressuresOf 1 [{ pad := 1, pressure := 0x4100 },
      { pad := 1, pressure := 0x4200 }] = [0x4100, 0x4200] := by
    decide
  rw [hpressures] at hpre
  cases pre with
  | nil => exact nofun
  | cons a rest =>
      cases rest with
      | nil =>
          have htake := List.prefix_iff_eq_take.mp hpre
          simp at htake
          rcases htake with ⟨ha, hq⟩
          subst ha hq
          decide
      | cons b more =>
          have hlen := hpre.length_le
          simp at hlen

/-- A press that drifts slowly is never reported. -/
theorem drift_not_jitterFiltered :
    ¬ JitterFiltered OpenOptions.default 1
      [{ pad := 1, pressure := 0x4100 }, { pad := 1, pressure := 0x4102 },
        { pad := 1, pressure := 0x4104 }] := by
  intro h
  rcases h.near [{ pad := 1, pressure := 0x4100 },
    { pad := 1, pressure := 0x4102 }] 0x4104 (List.prefix_refl _) (by decide)
    (by decide) with ⟨d, hd, hnear⟩
  have hdelivered : delivered (padEvents 1 (Transducer.trace
      (emitPadSample OpenOptions.default) DiffState.default
      [{ pad := 1, pressure := 0x4100 }, { pad := 1, pressure := 0x4102 },
        { pad := 1, pressure := 0x4104 }])) = some 0x4100 := by
    decide
  have hd' : d = 0x4100 := Option.some.inj (hd.symm.trans hdelivered)
  rw [hd'] at hnear
  exact absurd hnear (by decide)

end Device
end OpenMk3
