import Mathlib.Computability.Language
import OpenMk3.Device.PadMachine
import OpenMk3.Library.Latch

/-!
# Pad event protocol

Outside the raw mode the events of a pad form presses: an attack, any number of
pressure changes, and a release.  The on flag, the peak and the events agree on
where a press stands, and the flag is a function of the last sample outside the
two thresholds.
-/

namespace OpenMk3
namespace Device

open Library Proto
open scoped Computability

/-- The phases of one complete press. -/
def press : Language PadPhase := {[.attack]} * {[.pressure]}∗ * {[.release]}

def phases (events : List PadEvent) : List PadPhase :=
  events.map PadEvent.phase

def lastEdge (events : List PadEvent) : Option PadPhase :=
  ((phases events).filter fun phase => decide (phase ≠ .pressure)).getLast?

def attackOf (q : UInt16) : PadEvent :=
  { pressure := q
    velocity := some (pressureToVelocity q)
    phase := .attack }

theorem phases_append (events events' : List PadEvent) :
    phases (events ++ events') = phases events ++ phases events' :=
  List.map_append

theorem lastEdge_append_pressures (events : List PadEvent)
    {later : List PadEvent} (h : forall e, e ∈ later -> e.phase = .pressure) :
    lastEdge (events ++ later) = lastEdge events := by
  have hnil : (phases later).filter
      (fun phase => decide (phase ≠ .pressure)) = [] := by
    apply List.filter_eq_nil_iff.mpr
    intro phase hphase
    rcases List.mem_map.mp hphase with ⟨e, he, heq⟩
    rw [← heq, h e he]
    decide
  rw [lastEdge, phases_append, List.filter_append, hnil, List.append_nil]
  rfl

theorem lastEdge_snoc_edge (events : List PadEvent) {e : PadEvent}
    (h : e.phase ≠ .pressure) :
    lastEdge (events ++ [e]) = some e.phase := by
  rw [lastEdge, phases_append, List.filter_append]
  simp [phases, h]

/-!
## Words of presses
-/

theorem phases_of_pressures {later : List PadEvent}
    (h : forall e, e ∈ later -> e.phase = .pressure) :
    phases later ∈ ({[.pressure]} : Language PadPhase)∗ := by
  rw [Language.mem_kstar]
  refine ⟨later.map fun _ => [.pressure], ?_, ?_⟩
  · induction later with
    | nil => rfl
    | cons e rest ih =>
        have hrest := ih fun e' he' => h e' (List.mem_cons_of_mem e he')
        rw [phases, List.map_cons, h e List.mem_cons_self, List.map_cons,
          List.flatten_cons, ← hrest]
        rfl
  · intro word hword
    rcases List.mem_map.mp hword with ⟨_, _, heq⟩
    exact heq.symm

theorem press_of_pressures (q : UInt16) {later : List PadEvent}
    (h : forall e, e ∈ later -> e.phase = .pressure) :
    phases (attackOf q :: later) ++ [.release] ∈ press := by
  have hattack : [PadPhase.attack] ∈ ({[.attack]} : Language PadPhase) := rfl
  have hrelease : [PadPhase.release] ∈ ({[.release]} : Language PadPhase) := rfl
  exact Language.append_mem_mul
    (Language.append_mem_mul hattack (phases_of_pressures h)) hrelease

theorem presses_append {word tail : List PadPhase} (hword : word ∈ press∗)
    (htail : tail ∈ press) : word ++ tail ∈ press∗ := by
  rw [Language.mem_kstar] at hword ⊢
  rcases hword with ⟨parts, hflat, hparts⟩
  refine ⟨parts ++ [tail], by simp [hflat], ?_⟩
  intro part hpart
  rcases List.mem_append.mp hpart with hmem | hmem
  · exact hparts part hmem
  · rw [List.mem_singleton.mp hmem]
    exact htail

/-!
## The open press
-/

/-- Between presses: the events are complete presses. -/
structure Resting (events : List PadEvent) : Prop where
  presses : phases events ∈ press∗
  edge : lastEdge events ≠ some .attack

/-- Where an open press stands after some samples of a pad. -/
structure OpenPress (opts : OpenOptions) (samples : List UInt16)
    (peak : UInt16) (events : List PadEvent) (before : List UInt16)
    (q : UInt16) (after : List UInt16) (later : List PadEvent) : Prop where
  samples_eq : samples = before ++ q :: after
  events_eq : events =
    Transducer.trace (padStep opts) PadState.default before ++
      attackOf q :: later
  rested : phases (Transducer.trace (padStep opts) PadState.default before) ∈
    press∗
  held : forall e, e ∈ later -> e.phase = .pressure
  peak_mem : peak ∈ q :: after
  le_peak : forall r, r ∈ q :: after -> r ≤ peak

/-- What the on flag says about the events and the samples so far. -/
structure Protocol (opts : OpenOptions) (samples : List UInt16)
    (s : PadState) (events : List PadEvent) : Prop where
  off : s.on = false -> Resting events
  on : s.on = true -> exists before q after later,
    OpenPress opts samples s.peak events before q after later

section Filtered

variable {opts : OpenOptions} (hraw : opts.rawPadStream = false)

/-- A release closes the open press. -/
theorem resting_of_release {samples before after : List UInt16} {q r : UInt16}
    {peak : UInt16} {events later : List PadEvent}
    (h : OpenPress opts samples peak events before q after later) :
    Resting (events ++
      [{ pressure := r, velocity := none, phase := .release }]) := by
  constructor
  · rw [h.events_eq, List.append_assoc, phases_append]
    apply presses_append h.rested
    rw [phases_append]
    exact press_of_pressures q h.held
  · have hedge := lastEdge_snoc_edge events
      (e := { pressure := r, velocity := none, phase := .release }) nofun
    rw [hedge]
    exact nofun

/-- A sample of a held pad continues the open press. -/
theorem openPress_held {samples before after : List UInt16} {q r : UInt16}
    {peak : UInt16} {events later more : List PadEvent}
    (h : OpenPress opts samples peak events before q after later)
    (hmore : forall e, e ∈ more -> e.phase = .pressure) :
    OpenPress opts (samples ++ [r]) (if peak < r then r else peak)
      (events ++ more) before q (after ++ [r]) (later ++ more) := by
  constructor
  · rw [h.samples_eq, List.append_assoc, List.cons_append]
  · rw [h.events_eq, List.append_assoc, List.cons_append]
  · exact h.rested
  · intro e he
    rcases List.mem_append.mp he with hlater | hnew
    · exact h.held e hlater
    · exact hmore e hnew
  · split
    · exact List.mem_cons_of_mem q (List.mem_append_right after
        List.mem_cons_self)
    · rw [← List.cons_append]
      exact List.mem_append_left [r] h.peak_mem
  · intro x hx
    rw [← List.cons_append, List.mem_append, List.mem_singleton] at hx
    split
    · rename_i hlt
      rcases hx with hold | hnew
      · exact UInt16.le_trans (h.le_peak x hold) (UInt16.le_of_lt hlt)
      · rw [hnew]
        exact UInt16.le_refl r
    · rename_i hnot
      rcases hx with hold | hnew
      · exact h.le_peak x hold
      · rw [hnew]
        exact UInt16.not_lt.mp hnot

include hraw in
theorem protocol_step {samples : List UInt16} {s : PadState}
    {events : List PadEvent}
    (hevents : events =
      Transducer.trace (padStep opts) PadState.default samples)
    (h : Protocol opts samples s events) (r : UInt16) :
    Protocol opts (samples ++ [r]) (padStep opts s r).1
      (events ++ (padStep opts s r).2) := by
  have hmoved : forall e : PadEvent,
      e ∈ (if opts.padPressureStep.toNat ≤ absDiff r s.pressure then
        [{ pressure := r, velocity := none, phase := .pressure }] else []) ->
          e.phase = .pressure := by
    intro e he
    split at he
    · rw [List.mem_singleton.mp he]
    · cases he
  rcases padStep_cases hraw s r with ⟨hoff, _, hstep⟩ | ⟨hoff, _, hstep⟩ |
    ⟨hon, _, hstep⟩ | ⟨hon, _, hstep⟩
  · rw [hstep]
    refine ⟨nofun, fun _ => ⟨samples, r, [], [], rfl, ?_, ?_, nofun, ?_, ?_⟩⟩
    · rw [hevents]
      rfl
    · rw [← hevents]
      exact (h.off hoff).presses
    · exact List.mem_cons_self
    · intro x hx
      rw [List.mem_singleton.mp hx]
      exact UInt16.le_refl r
  · rw [hstep, List.append_nil]
    refine ⟨fun _ => h.off hoff, fun hon => ?_⟩
    rw [hoff] at hon
    cases hon
  · rw [hstep]
    rcases h.on hon with ⟨before, q, after, later, hopen⟩
    exact ⟨fun _ => resting_of_release hopen, nofun⟩
  · rw [hstep]
    rcases h.on hon with ⟨before, q, after, later, hopen⟩
    refine ⟨fun hoff => ?_, fun _ => ⟨before, q, after ++ [r], _,
      openPress_held hopen hmoved⟩⟩
    rw [hon] at hoff
    cases hoff

include hraw in
theorem protocol_run (samples : List UInt16) :
    Protocol opts samples
      (Transducer.final (padStep opts) PadState.default samples)
      (Transducer.trace (padStep opts) PadState.default samples) := by
  refine Transducer.run_induction ?_ ?_ samples
  · refine ⟨fun _ => ⟨Language.nil_mem_kstar press, ?_⟩, nofun⟩
    simp [lastEdge, phases]
  · intro samples r h
    exact protocol_step hraw rfl h r

/-!
## The on flag
-/

def rises (opts : OpenOptions) (q : UInt16) : Bool :=
  decide (opts.padOnThreshold ≤ q)

def falls (opts : OpenOptions) (q : UInt16) : Bool :=
  decide (q ≤ opts.padOffThreshold)

include hraw in
theorem padStep_on (s : PadState) (q : UInt16) :
    (padStep opts s q).1.on = latch (rises opts) (falls opts) s.on q := by
  rcases padStep_cases hraw s q with ⟨hs, hq, hstep⟩ | ⟨hs, hq, hstep⟩ |
    ⟨hs, hq, hstep⟩ | ⟨hs, hq, hstep⟩
  · rw [hstep, hs]
    simp [latch, rises, hq]
  · rw [hstep, hs]
    simpa [latch, rises, hs] using hq
  · rw [hstep, hs]
    simp [latch, falls, hq]
  · rw [hstep, hs]
    simpa [latch, falls, hs] using hq

include hraw in
/-- A pad is on when the last sample outside the thresholds turned it on. -/
theorem on_final_iff (hlt : opts.padOffThreshold < opts.padOnThreshold)
    (samples : List UInt16) :
    (Transducer.final (padStep opts) PadState.default samples).on = true <->
      exists q, (samples.filter
          (decides (rises opts) (falls opts))).getLast? = some q ∧
        opts.padOnThreshold ≤ q := by
  have hfinal := Transducer.observe_final PadState.on
    (latch (rises opts) (falls opts)) (padStep_on hraw) PadState.default
    samples
  have hexcl : forall q, rises opts q = true -> falls opts q = false := by
    intro q hq
    have hon : opts.padOnThreshold ≤ q := of_decide_eq_true hq
    exact decide_eq_false
      (UInt16.not_le.mpr (UInt16.lt_of_lt_of_le hlt hon))
  rw [hfinal]
  refine (latched_iff hexcl samples).trans ?_
  simp [rises]

include hraw in
theorem velocity_iff {samples : List UInt16} {e : PadEvent}
    (h : e ∈ Transducer.trace (padStep opts) PadState.default samples) :
    e.velocity.isSome = true <-> e.phase = .attack := by
  rcases Transducer.exists_step_of_mem_trace h with ⟨s, q, _, hmem⟩
  rcases padStep_cases hraw s q with ⟨_, _, hstep⟩ | ⟨_, _, hstep⟩ |
    ⟨_, _, hstep⟩ | ⟨_, _, hstep⟩
  · rw [hstep] at hmem
    rw [List.mem_singleton.mp hmem]
    simp
  · rw [hstep] at hmem
    cases hmem
  · rw [hstep] at hmem
    rw [List.mem_singleton.mp hmem]
    simp
  · rw [hstep] at hmem
    simp only at hmem
    split at hmem
    · rw [List.mem_singleton.mp hmem]
      simp
    · cases hmem

end Filtered

/-!
## The protocol of the task
-/

/-- A sample outside the open interval between the thresholds. -/
def outside (opts : OpenOptions) (q : UInt16) : Bool :=
  !(decide (opts.padOffThreshold < q) && decide (q < opts.padOnThreshold))

theorem decides_eq_outside (opts : OpenOptions) :
    decides (rises opts) (falls opts) = outside opts := by
  funext q
  unfold decides rises falls outside
  by_cases hoff : q ≤ opts.padOffThreshold
  · simp [hoff, UInt16.not_lt.mpr hoff]
  · by_cases hon : opts.padOnThreshold ≤ q
    · simp [hon, UInt16.not_lt.mpr hon]
    · simp [hon, hoff, UInt16.not_le.mp hon, UInt16.not_le.mp hoff]

/--
For thresholds in order, the events of each pad are a prefix of presses with
velocities on their attacks, the on flag says whether a press is open and which
side of the thresholds was met last, and an open press has its peak.
-/
theorem pad_protocol {opts : OpenOptions} (hraw : opts.rawPadStream = false)
    (hlt : opts.padOffThreshold < opts.padOnThreshold)
    (reports : List PadsReport) (p : Fin padCount) :
    let samples := reports.flatMap PadsReport.samples
    let s := Transducer.final (emitPads opts) DiffState.default reports
    let events := padEvents p
      (Transducer.trace (emitPads opts) DiffState.default reports)
    (exists rest, phases events ++ rest ∈ press∗) ∧
    (forall e, e ∈ events ->
      (e.velocity.isSome = true <-> e.phase = .attack)) ∧
    (s.padOn.get p = true <-> lastEdge events = some .attack) ∧
    (s.padOn.get p = true <-> exists q,
      ((pressuresOf p samples).filter (outside opts)).getLast? = some q ∧
        opts.padOnThreshold ≤ q) ∧
    (s.padOn.get p = true -> exists front q back later,
      samples = front ++ { pad := p, pressure := q } :: back ∧
      events = padEvents p (Transducer.trace (emitPadSample opts)
        DiffState.default front) ++ attackOf q :: later ∧
      (forall e, e ∈ later -> e.phase = .pressure) ∧
      s.padPeakSinceAttack.get p ∈ q :: pressuresOf p back ∧
      forall r, r ∈ q :: pressuresOf p back ->
        r ≤ s.padPeakSinceAttack.get p) := by
  intro samples s events
  have hview : padView p s = Transducer.final (padStep opts)
      PadState.default (pressuresOf p samples) := by
    rw [← padView_default p, ← padView_final_samples]
    show padView p (Transducer.final (emitPads opts) _ _) = _
    rw [emitPads, Transducer.final_framed]
  have hevents : events = Transducer.trace (padStep opts) PadState.default
      (pressuresOf p samples) := by
    rw [← padView_default p, ← padEvents_trace_samples]
    show padEvents p (Transducer.trace (emitPads opts) _ _) = _
    rw [emitPads, Transducer.trace_framed]
  have hprotocol := protocol_run hraw (pressuresOf p samples)
  rw [← hview, ← hevents] at hprotocol
  have hon : s.padOn.get p = (padView p s).on := rfl
  have hpeak : s.padPeakSinceAttack.get p = (padView p s).peak := rfl
  rw [hon, hpeak]
  refine ⟨?_, ?_, ?_, ?_, ?_⟩
  · cases hflag : (padView p s).on with
    | false =>
        exact ⟨[], by
          rw [List.append_nil]
          exact (hprotocol.off hflag).presses⟩
    | true =>
        rcases hprotocol.on hflag with ⟨before, q, after, later, hopen⟩
        refine ⟨[.release], ?_⟩
        rw [hopen.events_eq, phases_append, List.append_assoc]
        exact presses_append hopen.rested (press_of_pressures q hopen.held)
  · intro e he
    rw [hevents] at he
    exact velocity_iff hraw he
  · cases hflag : (padView p s).on with
    | false =>
        exact ⟨nofun, fun h => absurd h (hprotocol.off hflag).edge⟩
    | true =>
        rcases hprotocol.on hflag with ⟨before, q, after, later, hopen⟩
        refine ⟨fun _ => ?_, fun _ => rfl⟩
        rw [hopen.events_eq, ← List.singleton_append, ← List.append_assoc,
          lastEdge_append_pressures _ hopen.held,
          lastEdge_snoc_edge _ (e := attackOf q) nofun]
        rfl
  · rw [hview, on_final_iff hraw hlt, decides_eq_outside]
  · intro hflag
    rcases hprotocol.on hflag with ⟨before, q, after, later, hopen⟩
    rcases exists_sample_of_pressures hopen.samples_eq with
      ⟨front, back, hsamples, hfront, hback⟩
    refine ⟨front, q, back, later, hsamples, ?_, hopen.held, ?_, ?_⟩
    · rw [padEvents_trace_samples, padView_default, hfront]
      exact hopen.events_eq
    · rw [hback]
      exact hopen.peak_mem
    · rw [hback]
      exact hopen.le_peak

/-- One press of pad three, from its attack to its release. -/
theorem pad_protocol_press :
    let reports : List PadsReport :=
      [{ samples := [{ pad := 3, pressure := 0x4100 }] },
        { samples := [{ pad := 3, pressure := 0x4200 },
          { pad := 3, pressure := 0 }] }]
    let events := padEvents 3 (Transducer.trace (emitPads OpenOptions.default)
      DiffState.default reports)
    phases events = [.attack, .pressure, .release] ∧
      exists rest, phases events ++ rest ∈ press∗ :=
  ⟨by decide, (@pad_protocol OpenOptions.default rfl (by decide) _ 3).left⟩

end Device
end OpenMk3
