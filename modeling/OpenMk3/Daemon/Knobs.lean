import OpenMk3.Daemon.DisplayPath
import OpenMk3.Device.Mirror

/-!
# From the knobs to the screens

The two cursors of the browse state over a run of the daemon that has handled the
events of all controls frames: each report moves the row cursor by the way that one
knob has turned since the report before, and the facet cursor by one in the direction
of another, whatever buttons, pads and unparsable frames stand between.
-/

namespace OpenMk3
namespace Daemon
namespace Knobs

open Device Display Display.Framebuffer DisplayPath Library Proto Ui

/-!
## Turns
-/

/-- The way of an encoder from one report to the next. -/
def way (enc : Encoder) (prev c : ControlsReport) : Int :=
  ControlsReport.encoderDelta (enc.position prev) (enc.position c)

def navigateAll (b : BrowseState) (events : List Event) : BrowseState :=
  events.foldl (fun b ev => (b.navigate ev).1) b

def turnRows (b : BrowseState) (delta : Int) : BrowseState :=
  { b with cursor := (b.clampedCursor delta).toNat }

def turnFacets (b : BrowseState) (delta : Int) : BrowseState :=
  if b.facetValues = [] then b
  else
    { b with
      facetCursor :=
        (((b.facetCursor : Int) + delta.sign) % b.facetValues.length).toNat }

/-- The browse state moved once from one report to the next, with one encoder for the
rows and one for the facets. -/
def follow (rows facets : Encoder) (b : BrowseState) (prev c : ControlsReport) :
    BrowseState :=
  turnFacets (turnRows b (way rows prev c)) (way facets prev c)

/-- The browse state moved once for each report. -/
def followAll (rows facets : Encoder) (b : BrowseState) (prev : ControlsReport) :
    List ControlsReport -> BrowseState
  | [] => b
  | c :: rest => followAll rows facets (follow rows facets b prev c) c rest

section Turns

variable {b : BrowseState}

theorem turnRows_turnFacets (b : BrowseState) (d e : Int) :
    turnRows (turnFacets b e) d = turnFacets (turnRows b d) e := by
  unfold turnFacets
  by_cases hnil : b.facetValues = []
  · have hnil' : (turnRows b d).facetValues = [] := hnil
    rw [if_pos hnil, if_pos hnil']
  · have hne' : (turnRows b d).facetValues ≠ [] := hnil
    rw [if_neg hnil, if_neg hne']
    rfl

theorem foldl_turnRows_turnFacets (b : BrowseState) (e : Int) (ds : List Int) :
    ds.foldl turnRows (turnFacets b e) = turnFacets (ds.foldl turnRows b) e := by
  induction ds generalizing b with
  | nil => rfl
  | cons d rest ih =>
      rw [List.foldl_cons, List.foldl_cons, turnRows_turnFacets]
      exact ih (turnRows b d)

theorem rotation?_eq_some_iff {i : Fin macroEncoderCount} {ev : Event} {delta : Int}
    {absolute : UInt16} : ev.rotation? (.knob i) = some (delta, absolute) <->
      ev = .macroEncoder i delta absolute := by
  cases ev with
  | macroEncoder j d a =>
      by_cases hj : j = i
      · simp [Event.rotation?, hj]
      · simp [Event.rotation?, hj]
  | _ => simp [Event.rotation?]

theorem navigate_rows (h : b.InView) {ev : Event} {delta : Int} {absolute : UInt16}
    (hev : ev.rotation? (.knob 2) = some (delta, absolute)) :
    (b.navigate ev).1 = turnRows b delta := by
  rw [rotation?_eq_some_iff.mp hev, h.navigate_rows rfl]
  rfl

theorem navigate_facets {ev : Event} {delta : Int} {absolute : UInt16}
    (hev : ev.rotation? (.knob 0) = some (delta, absolute)) :
    (b.navigate ev).1 = turnFacets b delta := by
  rw [rotation?_eq_some_iff.mp hev]
  unfold turnFacets
  split
  · next hnil => simp [BrowseState.navigate, hnil]
  · next hne => rw [BrowseState.InView.navigate_facets hne rfl]

theorem navigate_other {ev : Event} (hrows : ev.rotation? (.knob 2) = none)
    (hfacets : ev.rotation? (.knob 0) = none) : (b.navigate ev).1 = b := by
  cases ev with
  | macroEncoder index d a =>
      have hrows' : index.val ≠ 2 := by
        intro hindex
        rw [Event.rotation?, if_pos (Fin.ext hindex)] at hrows
        cases hrows
      have hfacets' : index.val ≠ 0 := by
        intro hindex
        rw [Event.rotation?, if_pos (Fin.ext hindex)] at hfacets
        cases hfacets
      rw [BrowseState.navigate, if_neg hrows', if_neg hfacets']
  | _ => rfl

/-- The deltas that events report for an encoder. -/
def deltas (enc : Encoder) (events : List Event) : List Int :=
  (rotations enc events).map Prod.fst

theorem deltas_cons_some {enc : Encoder} {ev : Event} {delta : Int}
    {absolute : UInt16} (h : ev.rotation? enc = some (delta, absolute))
    (rest : List Event) : deltas enc (ev :: rest) = delta :: deltas enc rest := by
  unfold deltas rotations
  rw [List.filterMap_cons_some h, List.map_cons]

theorem deltas_cons_none {enc : Encoder} {ev : Event} (h : ev.rotation? enc = none)
    (rest : List Event) : deltas enc (ev :: rest) = deltas enc rest := by
  unfold deltas rotations
  rw [List.filterMap_cons_none h]

/-- The two knobs move their cursors independently of each other. -/
theorem navigateAll_eq (h : b.InView) (events : List Event) :
    navigateAll b events =
      (deltas (.knob 0) events).foldl turnFacets
        ((deltas (.knob 2) events).foldl turnRows b) := by
  induction events generalizing b with
  | nil => rfl
  | cons ev rest ih =>
      show navigateAll (b.navigate ev).1 rest = _
      rw [ih (h.navigate ev)]
      cases hrows : ev.rotation? (.knob 2) with
      | some r =>
          have hfacets : ev.rotation? (.knob 0) = none := by
            have hknobs : (2 : Fin macroEncoderCount) ≠ 0 := by decide
            rw [rotation?_eq_some_iff.mp hrows, Event.rotation?, if_neg hknobs]
          rw [navigate_rows h hrows, deltas_cons_some hrows, deltas_cons_none hfacets,
            List.foldl_cons]
      | none =>
          rw [deltas_cons_none hrows]
          cases hfacets : ev.rotation? (.knob 0) with
          | some r =>
              rw [navigate_facets hfacets, deltas_cons_some hfacets, List.foldl_cons,
                foldl_turnRows_turnFacets]
          | none => rw [navigate_other hrows hfacets, deltas_cons_none hfacets]

/-!
## One report
-/

theorem inView_turnRows (h : b.InView) (delta : Int) : (turnRows b delta).InView := by
  have hmoved := h.navigate (.macroEncoder 2 delta 0)
  rw [h.navigate_rows rfl] at hmoved
  exact hmoved

theorem inView_turnFacets (h : b.InView) (delta : Int) :
    (turnFacets b delta).InView := by
  have hturned : Event.rotation? (.knob 0) (.macroEncoder 0 delta 0) = some (delta, 0) :=
    rfl
  have hmoved := h.navigate (.macroEncoder 0 delta 0)
  rw [navigate_facets hturned] at hmoved
  exact hmoved

theorem turnRows_zero (h : b.InView) : turnRows b 0 = b := by
  have hle := h.cursor_le
  have hsame : (b.clampedCursor 0).toNat = b.cursor := by
    unfold BrowseState.clampedCursor
    omega
  unfold turnRows
  rw [hsame]

theorem turnFacets_zero (h : b.InView) : turnFacets b 0 = b := by
  unfold turnFacets
  split
  · rfl
  · next hne =>
      have hlt : (b.facetCursor : Int) < b.facetValues.length :=
        Int.ofNat_lt.mpr (h.facetCursor hne)
      rw [Int.sign_zero, Int.add_zero, Int.emod_eq_of_lt (Int.natCast_nonneg _) hlt,
        Int.toNat_natCast]

/-- A controls report moves by its difference; where there is none it has no event,
and the difference moves nothing. -/
theorem foldl_deltas_controlsEvents (enc : Encoder) (prev c : ControlsReport)
    {turn : BrowseState -> Int -> BrowseState} (hzero : turn b 0 = b) :
    (deltas enc (controlsEvents prev c)).foldl turn b = turn b (way enc prev c) := by
  unfold deltas
  rw [rotations_controlsEvents]
  by_cases hway : way enc prev c = 0
  · rw [rotation_of_still enc hway, hway, hzero]
    rfl
  · rw [rotation_of_turned enc hway]
    rfl

theorem navigateAll_controlsEvents (h : b.InView) (prev c : ControlsReport) :
    navigateAll b (controlsEvents prev c) = follow (.knob 2) (.knob 0) b prev c := by
  rw [navigateAll_eq h, foldl_deltas_controlsEvents _ _ _ (turnRows_zero h),
    foldl_deltas_controlsEvents _ _ _ (turnFacets_zero (inView_turnRows h _))]
  rfl

theorem inView_follow (h : b.InView) (rows facets : Encoder) (prev c : ControlsReport) :
    (follow rows facets b prev c).InView :=
  inView_turnFacets (inView_turnRows h _) _

/-!
## All frames
-/

theorem navigateAll_append (b : BrowseState) (es es' : List Event) :
    navigateAll b (es ++ es') = navigateAll (navigateAll b es) es' :=
  List.foldl_append

/-- Pads move no cursor. -/
theorem navigateAll_nonPad (b : BrowseState) (events : List Event) :
    navigateAll b (events.filterMap Event.nonPad?) = navigateAll b events := by
  induction events generalizing b with
  | nil => rfl
  | cons ev rest ih =>
      cases ev with
      | pad => exact ih b
      | _ => exact ih _

theorem navigateAll_reports (h : b.InView) (prev : Option ControlsReport)
    (reports : List ControlsReport) :
    navigateAll b (Transducer.trace controlsStep prev reports) =
      followAll (.knob 2) (.knob 0) b (prev.getD ControlsReport.default) reports := by
  induction reports generalizing b prev with
  | nil => rfl
  | cons c rest ih =>
      rw [Transducer.trace_cons, navigateAll_append]
      show navigateAll (navigateAll b (controlsEvents (prev.getD _) c))
        (Transducer.trace controlsStep (some c) rest) = _
      rw [navigateAll_controlsEvents h, ih (inView_follow h _ _ _ c)]
      rfl

/-- The events of the frames since some earlier ones, which left the last of their
reports. -/
theorem navigateAll_eventsOf (h : b.InView) (opts : OpenOptions)
    {earlier frames : List (List UInt8)} {events : List Event}
    (hevents : eventsOf opts (earlier ++ frames) = eventsOf opts earlier ++ events) :
    navigateAll b events =
      followAll (.knob 2) (.knob 0) b (latestControls earlier) (controlsOf frames) := by
  rw [eventsOf_eq, eventsOf_eq, List.flatMap_append, Transducer.trace_append,
    List.append_cancel_left_eq] at hevents
  have hview := (controlsProjection opts).final_view DiffState.default
    (earlier.flatMap decode)
  have hkeep := (controlsProjection opts).trace_keep
    (Transducer.final (diffInput opts) DiffState.default (earlier.flatMap decode))
    (frames.flatMap decode)
  rw [hview, hevents] at hkeep
  rw [← navigateAll_nonPad]
  show navigateAll b (events.filterMap (controlsProjection opts).keep) = _
  rw [hkeep, navigateAll_reports h, final_controlsStep]
  congr 2
  exact Option.or_none

end Turns

/-!
## A run of the daemon
-/

section Run

variable {s s' t : DisplayPath} {a : DisplayPathAct} {acts : List DisplayPathAct}

/-- The event that an action takes from the device. -/
def handles? : DisplayPathAct -> Option Event
  | .navUpdate ev => some ev
  | _ => none

def handled (acts : List DisplayPathAct) : List Event :=
  acts.filterMap handles?

/-- Whether the action replaces the rows. -/
def queries (a : DisplayPathAct) : Prop :=
  match a with
  | .showRows _ => True
  | _ => False

theorem inView_step (h : s.browse.InView) (hstep : Performed s a s') :
    s'.browse.InView := by
  cases hstep with
  | navUpdate ev => exact h.navigate ev
  | showRows rows => exact h.setRows rows
  | navRepaint => exact h
  | paintRight => exact h
  | wake => exact h
  | writeOk => exact h
  | writeErr => exact h

theorem browse_step (ha : ¬ queries a) (hstep : Performed s a s') :
    s'.browse = navigateAll s.browse (handles? a).toList := by
  cases hstep with
  | navUpdate => rfl
  | showRows => exact absurd trivial ha
  | navRepaint => rfl
  | paintRight => rfl
  | wake => rfl
  | writeOk => rfl
  | writeErr => rfl

theorem inView_run (h : s.browse.InView) (hrun : Transition.run step s acts = some s') :
    s'.browse.InView := by
  let view : DisplayPath -> Prop := fun u => u.browse.InView
  have hstart : view s := h
  refine Transition.run_invariant_of_steps step (fun _ _ => True) hstart ?_
    (fun _ _ _ _ _ => trivial) hrun
  intro u a u' hu _ hstep
  exact inView_step hu (performed_of_step hstep)

theorem browse_run (hacts : forall a, a ∈ acts -> ¬ queries a)
    (hrun : Transition.run step s acts = some s') :
    s'.browse = navigateAll s.browse (handled acts) := by
  induction acts generalizing s with
  | nil =>
      cases hrun
      rfl
  | cons a rest ih =>
      rcases Option.bind_eq_some_iff.mp hrun with ⟨u, hu, hrest⟩
      have hbrowse := browse_step (hacts a List.mem_cons_self) (performed_of_step hu)
      have hhandled : handled (a :: rest) = (handles? a).toList ++ handled rest := by
        unfold handled
        cases a <;> rfl
      rw [ih (fun b hb => hacts b (List.mem_cons_of_mem a hb)) hrest, hbrowse, hhandled,
        navigateAll_append]

variable {initial : BrowseState} {screens : Screens} {pre post : List DisplayPathAct}

/-- In every interleaving of the events, the queries, the repaints, the two display
tasks and their writes: when the events of all frames have been handled, and no query
has replaced the rows since those of some earlier frames had been, a display at rest
shows the browse state of that time, moved once for each controls report since. -/
theorem knobs_shown_run (hcursor : initial.cursor = 0) (hfacet : initial.facetCursor = 0)
    (hpre : Transition.run step (boot initial screens) pre = some t)
    (hpost : Transition.run step t post = some s)
    (hrows : forall a, a ∈ post -> ¬ queries a)
    {opts : OpenOptions} {earlier frames : List (List UInt8)}
    (hearlier : handled pre = eventsOf opts earlier)
    (hall : handled (pre ++ post) = eventsOf opts (earlier ++ frames))
    (hrepainted : Repainted (pre ++ post)) (hdue : s.repaintDue = false)
    (hpainting : s.painting = false) {id : DisplayId} (hidle : s.inFlight id = none)
    (hclean : (s.fb id).isDirty = false) {x y : Nat} (hon : OnScreen x y) :
    s.screens id x y =
      ((followAll (.knob 2) (.knob 0) t.browse (latestControls earlier)
        (controlsOf frames)).render id Framebuffer.new).pixelAt x y := by
  have hrun : Transition.run step (boot initial screens) (pre ++ post) = some s := by
    rw [Transition.run_append, hpre]
    exact hpost
  have hview : t.browse.InView :=
    inView_run (s := boot initial screens)
      (BrowseState.inView_of_zero hcursor hfacet) hpre
  have hevents : eventsOf opts (earlier ++ frames) =
      eventsOf opts earlier ++ handled post := by
    rw [← hall, ← hearlier]
    exact List.filterMap_append
  rw [← navigateAll_eventsOf hview opts hevents, ← browse_run hrows hpost]
  exact shown_of_rest (covers_run hrun) (painted_run hrun) (fresh_run hrun hrepainted)
    hdue hpainting hidle hclean hon

/-- The first frame has the facet knob at five. -/
theorem knobs_shown_facetTurned :
    exists s, Transition.run step
        (boot { facetValues := ["Synth", "Bass"] } fun _ _ _ => 7)
        ([.paintRight, .navUpdate (.macroEncoder 0 5 5), .navRepaint] ++
          [.paintRight, .wake .left, .writeOk .left]) = some s ∧
      (followAll (.knob 2) (.knob 0) { facetValues := ["Synth", "Bass"] }
        ControlsReport.default [knobAtFive.report]).facetCursor = 1 ∧
      forall x y, OnScreen x y -> s.screens .left x y =
        ((followAll (.knob 2) (.knob 0) { facetValues := ["Synth", "Bass"] }
          ControlsReport.default [knobAtFive.report]).render .left
          Framebuffer.new).pixelAt x y := by
  let turned : List DisplayPathAct :=
    [.paintRight, .navUpdate (.macroEncoder 0 5 5), .navRepaint]
  let shown : List DisplayPathAct := [.paintRight, .wake .left, .writeOk .left]
  have hturned : exists u, Transition.run step
      (boot { facetValues := ["Synth", "Bass"] } fun _ _ _ => 7) turned = some u ∧
      u.painting = true ∧ u.repaintDue = false ∧ u.inFlight .left = none ∧
      (u.fb .left).isDirty = true := by
    refine ⟨_, rfl, rfl, rfl, rfl, ?_⟩
    have hon : OnScreen 0 0 := by decide
    exact isDirty_of_marked (marked_render _ .left _ hon)
  rcases hturned with ⟨u, hu, hpaint, hnodue, hfree, hdirty⟩
  rcases exists_firstPicture hpaint hnodue hfree hdirty with
    ⟨s, hs, hidle, hclean, hdue, hpainting⟩
  have hrun : Transition.run step
      (boot { facetValues := ["Synth", "Bass"] } fun _ _ _ => 7) (turned ++ shown) =
        some s := by
    rw [Transition.run_append, hu]
    exact hs
  have hstart : Transition.run step
      (boot { facetValues := ["Synth", "Bass"] } fun _ _ _ => 7) [] = some _ := rfl
  have hearlier : handled [] = eventsOf OpenOptions.default [] := rfl
  have hall : handled ([] ++ (turned ++ shown)) =
      eventsOf OpenOptions.default ([] ++ [knobAtFive.raw]) := by decide
  have hkinds : forall a, a ∈ turned ++ shown -> ¬ queries a ∧ ¬ fails a := by
    intro a ha
    simp only [turned, shown, List.cons_append, List.nil_append, List.mem_cons,
      List.not_mem_nil, or_false] at ha
    rcases ha with rfl | rfl | rfl | rfl | rfl | rfl <;> exact ⟨id, id⟩
  have hrepainted : Repainted (turned ++ shown) :=
    repainted_of_forall fun a ha => (hkinds a ha).right
  refine ⟨s, hrun, by decide, ?_⟩
  intro x y hon
  exact knobs_shown_run rfl rfl hstart hrun (fun a ha => (hkinds a ha).left) hearlier hall
    hrepainted hdue hpainting hidle hclean hon

end Run

end Knobs
end Daemon
end OpenMk3
