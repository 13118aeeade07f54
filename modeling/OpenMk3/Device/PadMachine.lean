import OpenMk3.Device.Diff

/-!
# Pad machine

The part of the diff task that one pad sees: its last pressure, whether it is
on, and its peak.  The task projects onto this machine for every pad, so facts
about one pad's run are facts about the task.
-/

namespace OpenMk3
namespace Device

open Library Proto

/-- The entries of one pad in the arrays of the diff state. -/
structure PadState where
  pressure : UInt16
  on : Bool
  peak : UInt16
deriving DecidableEq, Repr

def PadState.default : PadState := { pressure := 0, on := false, peak := 0 }

/-- The filter of one pad. -/
def padStep (opts : OpenOptions) : Transducer PadState UInt16 PadEvent :=
  fun s q =>
    if opts.rawPadStream then
      ({ s with pressure := q },
        [{ pressure := q, velocity := none, phase := .pressure }])
    else if s.on = false ∧ opts.padOnThreshold ≤ q then
      ({ pressure := q, on := true, peak := q },
        [{ pressure := q
           velocity := some (pressureToVelocity q)
           phase := .attack }])
    else if s.on = true ∧ q ≤ opts.padOffThreshold then
      ({ s with pressure := q, on := false },
        [{ pressure := q, velocity := none, phase := .release }])
    else if s.on = true then
      ({ s with pressure := q, peak := if s.peak < q then q else s.peak },
        if opts.padPressureStep.toNat ≤ absDiff q s.pressure then
          [{ pressure := q, velocity := none, phase := .pressure }]
        else [])
    else
      ({ s with pressure := q }, [])

/-!
## Projection of the task
-/

def padView (p : Fin padCount) (s : DiffState) : PadState :=
  { pressure := s.padPressures.get p
    on := s.padOn.get p
    peak := s.padPeakSinceAttack.get p }

def padSelect (p : Fin padCount) : Input -> Option UInt16
  | .controls _ => none
  | .sample s => if s.pad = p then some s.pressure else none

@[simp] theorem padView_default (p : Fin padCount) :
    padView p DiffState.default = PadState.default := by
  have hreplicate : forall {item : Type} (v : item),
      (Vector.replicate padCount v).get p = v :=
    fun _ => Vector.getElem_replicate p.isLt
  simp only [padView, DiffState.default, PadState.default, hreplicate]

theorem padEvents_controlsEvents (p : Fin padCount)
    (prev c : ControlsReport) : padEvents p (controlsEvents prev c) = [] := by
  apply List.filterMap_eq_nil_iff.mpr
  intro e he
  exact padEvent?_of_nonPad (nonPad_of_mem_controlsEvents he)

/-- A sample drives the machine of its own pad. -/
theorem emitPadSample_self (opts : OpenOptions) (s : DiffState)
    (p : Fin padCount) (q : UInt16) :
    let after := emitPadSample opts s { pad := p, pressure := q }
    padStep opts (padView p s) q =
      (padView p after.1, padEvents p after.2) := by
  simp only [padStep, emitPadSample, padView, padEvents]
  by_cases hraw : opts.rawPadStream = true
  · simp [hraw, Event.padEvent?]
  · by_cases hon : s.padOn.get p = true
    · by_cases hrel : q ≤ opts.padOffThreshold
      · simp [hraw, hon, hrel, Event.padEvent?]
      · by_cases hpeak : s.padPeakSinceAttack.get p < q <;>
        by_cases hmove : opts.padPressureStep.toNat ≤
          absDiff q (s.padPressures.get p) <;>
        simp [hraw, hon, hrel, hpeak, hmove, Event.padEvent?]
    · by_cases hatt : opts.padOnThreshold ≤ q
      · simp [hraw, hon, hatt, Event.padEvent?]
      · simp [hraw, hon, hatt]

/-- A sample leaves the machines of the other pads alone. -/
theorem emitPadSample_other (opts : OpenOptions) (s : DiffState)
    {p : Fin padCount} {sample : PadSample} (h : sample.pad ≠ p) :
    let after := emitPadSample opts s sample
    padView p after.1 = padView p s ∧ padEvents p after.2 = [] := by
  simp only [emitPadSample, padView, padEvents]
  split_ifs <;> simp [Event.padEvent?, h, get_set_of_ne _ h]

/-- The diff task as seen by one pad. -/
def padProjection (opts : OpenOptions) (p : Fin padCount) :
    Transducer.Projection (diffInput opts) (padStep opts) where
  view := padView p
  select := padSelect p
  keep := Event.padEvent? p
  step_selected := by
    intro s i q hsel
    cases i with
    | controls c => cases hsel
    | sample sample =>
        by_cases hpad : sample.pad = p
        · rw [padSelect, if_pos hpad] at hsel
          cases hsel
          subst hpad
          exact emitPadSample_self opts s sample.pad sample.pressure
        · rw [padSelect, if_neg hpad] at hsel
          cases hsel
  step_skipped := by
    intro s i hsel
    cases i with
    | controls c =>
        exact ⟨rfl, padEvents_controlsEvents p _ c⟩
    | sample sample =>
        by_cases hpad : sample.pad = p
        · rw [padSelect, if_pos hpad] at hsel
          cases hsel
        · exact emitPadSample_other opts s hpad

theorem padView_final (opts : OpenOptions) (p : Fin padCount)
    (s : DiffState) (frames : List (List UInt8)) :
    padView p (Transducer.final (diffFrame opts) s frames) =
      Transducer.final (padStep opts) (padView p s)
        ((frames.flatMap decode).filterMap (padSelect p)) := by
  rw [diffFrame_eq_framed, Transducer.final_framed]
  exact (padProjection opts p).final_view s _

theorem padEvents_trace (opts : OpenOptions) (p : Fin padCount)
    (s : DiffState) (frames : List (List UInt8)) :
    padEvents p (Transducer.trace (diffFrame opts) s frames) =
      Transducer.trace (padStep opts) (padView p s)
        ((frames.flatMap decode).filterMap (padSelect p)) := by
  rw [diffFrame_eq_framed, Transducer.trace_framed]
  exact (padProjection opts p).trace_keep s _

/-!
## Runs over pads reports
-/

/-- The pressures of one pad among samples, in order. -/
def pressuresOf (p : Fin padCount) (samples : List PadSample) : List UInt16 :=
  samples.filterMap fun s => if s.pad = p then some s.pressure else none

theorem pressuresOf_append (p : Fin padCount) (xs ys : List PadSample) :
    pressuresOf p (xs ++ ys) = pressuresOf p xs ++ pressuresOf p ys :=
  List.filterMap_append

@[simp] theorem pressuresOf_singleton (p : Fin padCount) (q : UInt16) :
    pressuresOf p [{ pad := p, pressure := q }] = [q] := by
  simp [pressuresOf]

/-- A pressure of a pad is the pressure of one of its samples. -/
theorem exists_sample_of_pressures {p : Fin padCount}
    {samples : List PadSample} {before after : List UInt16} {q : UInt16}
    (h : pressuresOf p samples = before ++ q :: after) :
    exists front back, samples = front ++ { pad := p, pressure := q } :: back ∧
      pressuresOf p front = before ∧ pressuresOf p back = after := by
  rcases List.filterMap_eq_append_iff.mp h with
    ⟨front, rest, hsplit, hfront, hrest⟩
  rcases List.filterMap_eq_cons_iff.mp hrest with
    ⟨skipped, sample, back, hcons, hskipped, hsample, hback⟩
  refine ⟨front ++ skipped, back, ?_, ?_, hback⟩
  · have heq : sample = { pad := p, pressure := q } := by
      split at hsample
      · rename_i hpad
        cases hsample
        rw [← hpad]
      · cases hsample
    rw [hsplit, hcons, heq, List.append_assoc]
  · have hnil := List.filterMap_eq_nil_iff.mpr hskipped
    rw [pressuresOf, List.filterMap_append, hfront, hnil, List.append_nil]

theorem padSelect_map_sample (p : Fin padCount) (samples : List PadSample) :
    (samples.map Input.sample).filterMap (padSelect p) =
      pressuresOf p samples := by
  rw [List.filterMap_map]
  rfl

theorem padView_final_samples (opts : OpenOptions) (p : Fin padCount)
    (s : DiffState) (samples : List PadSample) :
    padView p (Transducer.final (emitPadSample opts) s samples) =
      Transducer.final (padStep opts) (padView p s)
        (pressuresOf p samples) := by
  rw [← padSelect_map_sample]
  have hview := (padProjection opts p).final_view s (samples.map .sample)
  rw [Transducer.final_map] at hview
  exact hview

theorem padEvents_trace_samples (opts : OpenOptions) (p : Fin padCount)
    (s : DiffState) (samples : List PadSample) :
    padEvents p (Transducer.trace (emitPadSample opts) s samples) =
      Transducer.trace (padStep opts) (padView p s)
        (pressuresOf p samples) := by
  rw [← padSelect_map_sample]
  have hkeep := (padProjection opts p).trace_keep s (samples.map .sample)
  rw [Transducer.trace_map] at hkeep
  exact hkeep

/-!
## Steps of the filter
-/

/-- Everything that one sample can do outside the raw mode. -/
theorem padStep_cases {opts : OpenOptions} (hraw : opts.rawPadStream = false)
    (s : PadState) (q : UInt16) :
    (s.on = false ∧ opts.padOnThreshold ≤ q ∧
      padStep opts s q =
        ({ pressure := q, on := true, peak := q },
          [{ pressure := q
             velocity := some (pressureToVelocity q)
             phase := .attack }])) ∨
    (s.on = false ∧ q < opts.padOnThreshold ∧
      padStep opts s q = ({ s with pressure := q }, [])) ∨
    (s.on = true ∧ q ≤ opts.padOffThreshold ∧
      padStep opts s q =
        ({ s with pressure := q, on := false },
          [{ pressure := q, velocity := none, phase := .release }])) ∨
    (s.on = true ∧ opts.padOffThreshold < q ∧
      padStep opts s q =
        ({ s with pressure := q, peak := if s.peak < q then q else s.peak },
          if opts.padPressureStep.toNat ≤ absDiff q s.pressure then
            [{ pressure := q, velocity := none, phase := .pressure }]
          else [])) := by
  cases hon : s.on with
  | false =>
      by_cases hq : opts.padOnThreshold ≤ q
      · exact Or.inl ⟨rfl, hq, by simp [padStep, hraw, hon, hq]⟩
      · exact Or.inr (Or.inl ⟨rfl, UInt16.not_le.mp hq,
          by simp [padStep, hraw, hon, hq]⟩)
  | true =>
      by_cases hq : q ≤ opts.padOffThreshold
      · exact Or.inr (Or.inr (Or.inl ⟨rfl, hq,
          by simp [padStep, hraw, hon, hq]⟩))
      · exact Or.inr (Or.inr (Or.inr ⟨rfl, UInt16.not_le.mp hq,
          by simp [padStep, hraw, hon, hq]⟩))

end Device
end OpenMk3
