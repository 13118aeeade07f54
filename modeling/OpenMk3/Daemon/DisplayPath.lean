import OpenMk3.Display.Task
import OpenMk3.Ui.Displays
import OpenMk3.Ui.Fill

/-!
# From the browse state to the screens

The daemon's writers of the browse state, the two framebuffers, the scheduler task of
each display and the device that both tasks write to, in atomic steps: a repaint draws
one display after the other while it holds the browse mutex, and a task may encode in
between.  Every repaint marks every tile, so what a failing write has lost comes with
the next repaint.
-/

namespace OpenMk3
namespace Daemon

open Device Display Display.Framebuffer Library Proto Ui

/-- The browse state and the framebuffers, the payload that each display task is
writing, and what the device shows.  A display is `stale` until it is painted for the
first time, and again when a write for it fails. -/
structure DisplayPath where
  browse : BrowseState
  -- `handle_nav_event` has changed the state and is still to repaint.
  repaintDue : Bool
  -- A repaint has drawn the left display and is still to draw the right one.
  painting : Bool
  fb : DisplayId -> Framebuffer
  inFlight : (id : DisplayId) -> Option (InFlight id)
  screens : Screens
  stale : DisplayId -> Bool

inductive DisplayPathAct where
  | navUpdate (ev : Event)
  | navRepaint
  -- `Browse`, or the background scan, with the rows of its query.
  | showRows (rows : List PresetRow)
  | paintRight
  | wake (id : DisplayId)
  | writeOk (id : DisplayId)
  -- The device may have taken any part of the payload.
  | writeErr (id : DisplayId) (shown : Raster UInt16)

namespace DisplayPath

/-- `modify` of one display with its picture. -/
def paint (s : DisplayPath) (id : DisplayId) : DisplayPath :=
  { s with
    fb := Function.update s.fb id (s.browse.render id (s.fb id))
    stale := Function.update s.stale id false }

/-- The first half of `repaint`. -/
def paintLeft (s : DisplayPath) : DisplayPath :=
  { s.paint .left with painting := true }

/-- The daemon in the first repaint of `main`, before a device that shows
anything. -/
def boot (initial : BrowseState) (screens : Screens) : DisplayPath :=
  paintLeft
    { browse := initial
      repaintDue := false
      painting := false
      fb := fun _ => Framebuffer.new
      inFlight := fun _ => none
      screens := screens
      stale := fun _ => true }

/-- A task encodes its framebuffer; it does not wake up for a clean one. -/
def encode (s : DisplayPath) (id : DisplayId) : Option DisplayPath :=
  if (s.fb id).isDirty then
    match h : encodeFrame id (s.fb id) with
    | none => none
    | some (payload, fb) =>
        let p : InFlight id :=
          { taken := s.fb id, payload := payload, encoded := by rw [h]; rfl }
        some
          { s with
            fb := Function.update s.fb id fb
            inFlight := Function.update s.inFlight id (some p) }
  else none

def step : Transition DisplayPath DisplayPathAct
  | s, .navUpdate ev =>
      if s.painting ∨ s.repaintDue then none
      else
        let (browse, changed) := s.browse.navigate ev
        some { s with browse := browse, repaintDue := changed }
  | s, .navRepaint =>
      if s.repaintDue ∧ ¬ s.painting then some { s.paintLeft with repaintDue := false }
      else none
  | s, .showRows rows =>
      if s.painting then none
      else some { s with browse := s.browse.setRows rows }.paintLeft
  | s, .paintRight =>
      if s.painting then some { s.paint .right with painting := false } else none
  | s, .wake id =>
      match s.inFlight id with
      | none => s.encode id
      | some _ => none
  | s, .writeOk id =>
      match s.inFlight id with
      | none => none
      | some p =>
          (showTransfer s.screens p.payload).map fun screens =>
            { s with
              screens := screens
              inFlight := Function.update s.inFlight id none }
  | s, .writeErr id shown =>
      match s.inFlight id with
      | none => none
      | some _ =>
          some { s with
            screens := Function.update s.screens id shown
            inFlight := Function.update s.inFlight id none
            stale := Function.update s.stale id true }

/-!
## Painting
-/

/-- Drawing the picture of a state marks every tile, whatever was marked. -/
theorem marked_render (b : BrowseState) (id : DisplayId) (fb : Framebuffer)
    {x y : Nat} (hon : OnScreen x y) : (b.render id fb).Marked x y := by
  have herase : (BrowseState.erase fb).Marked x y := by
    unfold BrowseState.erase
    refine (FbSink.marked_fillRect fb _ _ _ _ _ hon).mpr (.inr ⟨x, y, hon, ?_, rfl, rfl⟩)
    exact ⟨⟨Nat.zero_le x, hon.left⟩, ⟨Nat.zero_le y, hon.right⟩⟩
  -- the sinks that are drawn from the erased one, in lockstep with themselves
  let drawn : Framebuffer -> Framebuffer -> Prop :=
    fun s s' => s = s' ∧ (BrowseState.erase fb).DrawnTo s
  have hlockstep : PixelSink.Lockstep drawn := by
    refine ⟨fun _ => rfl, fun _ => rfl, ?_⟩
    rintro s _ px py c ⟨rfl, hdrawn⟩
    exact ⟨rfl, hdrawn.trans (drawnTo_setPixel s px py c)⟩
  have hrender : (BrowseState.erase fb).DrawnTo (b.render id fb) :=
    (BrowseState.render_lockstep hlockstep ⟨rfl, Marks.refl _ _⟩ b id).right
  exact hrender.kept (a := (⟨x, hon.left⟩, ⟨y, hon.right⟩)) herase

/-- A framebuffer that is all marked covers any screen. -/
theorem coversScreen_of_marked {fb : Framebuffer}
    (h : forall x y, OnScreen x y -> fb.Marked x y) (screen : Raster UInt16) :
    fb.CoversScreen screen :=
  (coversScreen_iff fb screen).mpr fun x y hon _ => h x y hon

/-!
## What each step does
-/

inductive Performed (s : DisplayPath) : DisplayPathAct -> DisplayPath -> Prop where
  | navUpdate (ev : Event) (hpainting : s.painting = false)
      (hdue : s.repaintDue = false) :
      Performed s (.navUpdate ev)
        { s with
          browse := (s.browse.navigate ev).1
          repaintDue := (s.browse.navigate ev).2 }
  | navRepaint (hdue : s.repaintDue = true) (hpainting : s.painting = false) :
      Performed s .navRepaint { s.paintLeft with repaintDue := false }
  | showRows (rows : List PresetRow) (hpainting : s.painting = false) :
      Performed s (.showRows rows) { s with browse := s.browse.setRows rows }.paintLeft
  | paintRight (hpainting : s.painting = true) :
      Performed s .paintRight { s.paint .right with painting := false }
  | wake {id : DisplayId} (p : InFlight id) (hidle : s.inFlight id = none)
      (hdirty : (s.fb id).isDirty = true) (htaken : p.taken = s.fb id) :
      Performed s (.wake id)
        { s with
          fb := Function.update s.fb id
            { s.fb id with dirty := (s.fb id).dirty.clear }
          inFlight := Function.update s.inFlight id (some p) }
  | writeOk {id : DisplayId} {p : InFlight id} {screens : Screens}
      (hflight : s.inFlight id = some p)
      (hscreens : forall other x y, screens other x y =
        if other = id ∧ p.taken.Marked x y then p.taken.pixelAt x y
        else s.screens other x y) :
      Performed s (.writeOk id)
        { s with
          screens := screens
          inFlight := Function.update s.inFlight id none }
  | writeErr {id : DisplayId} {p : InFlight id} (shown : Raster UInt16)
      (hflight : s.inFlight id = some p) :
      Performed s (.writeErr id shown)
        { s with
          screens := Function.update s.screens id shown
          inFlight := Function.update s.inFlight id none
          stale := Function.update s.stale id true }

variable {s s' : DisplayPath} {a : DisplayPathAct}

theorem encode_dirty {id : DisplayId} (h : (s.fb id).isDirty = true) :
    exists p : InFlight id, p.taken = s.fb id ∧ s.encode id = some
      { s with
        fb := Function.update s.fb id { s.fb id with dirty := (s.fb id).dirty.clear }
        inFlight := Function.update s.inFlight id (some p) } := by
  refine ⟨⟨s.fb id, frameBytes id (s.fb id), by rw [encodeFrame_eq]; rfl⟩, rfl, ?_⟩
  unfold encode
  rw [if_pos h]
  split
  · next hnone =>
      rw [encodeFrame_eq] at hnone
      cases hnone
  · next hsome =>
      have heq := hsome
      rw [encodeFrame_eq] at heq
      cases heq
      rfl

theorem isDirty_clear (fb : Framebuffer) :
    ({ fb with dirty := fb.dirty.clear } : Framebuffer).isDirty = false := by
  simp [isDirty, DirtyTracker.clear, DirtyTracker.isEmpty]

theorem show_inFlight {id : DisplayId} (p : InFlight id) (screens : Screens) :
    exists screens', showTransfer screens p.payload = some screens' ∧
      forall other x y, screens' other x y =
        if other = id ∧ p.taken.Marked x y then p.taken.pixelAt x y
        else screens other x y := by
  rw [DisplayTask.payload_eq p]
  exact showTransfer_frameBytes id p.taken screens

theorem performed_of_step (h : step s a = some s') : Performed s a s' := by
  cases a with
  | navUpdate ev =>
      simp only [step] at h
      split at h
      · cases h
      · next hfree =>
          cases h
          rw [not_or, Bool.not_eq_true, Bool.not_eq_true] at hfree
          exact .navUpdate ev hfree.left hfree.right
  | navRepaint =>
      simp only [step] at h
      split at h
      · next hguard =>
          cases h
          exact .navRepaint hguard.left (eq_false_of_ne_true hguard.right)
      · cases h
  | showRows rows =>
      simp only [step] at h
      split at h
      · cases h
      · next hfree =>
          cases h
          exact .showRows rows (eq_false_of_ne_true hfree)
  | paintRight =>
      simp only [step] at h
      split at h
      · next hpainting =>
          cases h
          exact .paintRight hpainting
      · cases h
  | wake id =>
      simp only [step] at h
      split at h
      · next hidle =>
          cases hdirty : (s.fb id).isDirty with
          | false => simp [encode, hdirty] at h
          | true =>
              rcases encode_dirty hdirty with ⟨p, htaken, hencode⟩
              rw [hencode] at h
              cases h
              exact .wake p hidle hdirty htaken
      · cases h
  | writeOk id =>
      simp only [step] at h
      split at h
      · cases h
      · next p hflight =>
          rcases show_inFlight p s.screens with ⟨screens, hshow, hscreens⟩
          rw [hshow] at h
          cases h
          exact .writeOk hflight hscreens
  | writeErr id shown =>
      simp only [step] at h
      split at h
      · cases h
      · next p hflight =>
          cases h
          exact .writeErr shown hflight

/-!
## What every step keeps
-/

/-- The screen of a display once the payload in flight has arrived. -/
def arriving (s : DisplayPath) (id : DisplayId) : Raster UInt16 :=
  match s.inFlight id with
  | none => s.screens id
  | some p => fun x y =>
      if p.taken.Marked x y then p.taken.pixelAt x y else s.screens id x y

/-- What the framebuffer of a display shows and its screen will not is marked, unless
the display is stale. -/
def Covers (s : DisplayPath) : Prop :=
  forall id, s.stale id = false -> (s.fb id).CoversScreen (s.arriving id)

/-- The framebuffers hold the picture of the browse state, unless a repaint is due, and
as far as one that is under way has come. -/
structure Painted (s : DisplayPath) : Prop where
  left : s.painting = true ->
    (s.fb .left).pixels = (s.browse.render .left Framebuffer.new).pixels
  current : s.repaintDue = false -> s.painting = false -> forall id,
    (s.fb id).pixels = (s.browse.render id Framebuffer.new).pixels

theorem arriving_idle {id : DisplayId} (h : s.inFlight id = none) :
    s.arriving id = s.screens id := by
  unfold arriving
  rw [h]

theorem arriving_inFlight {id : DisplayId} {p : InFlight id}
    (h : s.inFlight id = some p) : s.arriving id = fun x y =>
      if p.taken.Marked x y then p.taken.pixelAt x y else s.screens id x y := by
  unfold arriving
  rw [h]

theorem fb_paint (s : DisplayPath) (id : DisplayId) :
    (s.paint id).fb id = s.browse.render id (s.fb id) :=
  Function.update_self ..

theorem fb_paint_of_ne {id other : DisplayId} (h : other ≠ id) :
    (s.paint id).fb other = s.fb other :=
  Function.update_of_ne h _ _

theorem stale_paint_of_ne {id other : DisplayId} (h : other ≠ id) :
    (s.paint id).stale other = s.stale other :=
  Function.update_of_ne h _ _

theorem stale_paint (s : DisplayPath) (id : DisplayId) :
    (s.paint id).stale id = false :=
  Function.update_self ..

theorem Covers.paint (h : s.Covers) (id : DisplayId) : (s.paint id).Covers := by
  intro other hstale
  rcases eq_or_ne other id with rfl | hne
  · rw [fb_paint]
    exact coversScreen_of_marked (fun x y => marked_render s.browse other _) _
  · rw [fb_paint_of_ne hne]
    exact h other ((stale_paint_of_ne hne).symm.trans hstale)

/-- A step of the task of one display that leaves the other as it was. -/
theorem Covers.task (h : s.Covers) (id : DisplayId)
    (hother : forall other, other ≠ id -> s'.fb other = s.fb other ∧
      s'.stale other = s.stale other ∧ s'.arriving other = s.arriving other)
    (hid : s'.stale id = false -> (s'.fb id).CoversScreen (s'.arriving id)) :
    s'.Covers := by
  intro other hstale
  rcases eq_or_ne other id with rfl | hne
  · exact hid hstale
  · rcases hother other hne with ⟨hfb, hkept, harriving⟩
    rw [hfb, harriving]
    exact h other (hkept.symm.trans hstale)

theorem Covers.step (h : s.Covers) (hstep : Performed s a s') : s'.Covers := by
  cases hstep with
  | navUpdate => exact h
  | navRepaint => exact Covers.paint h .left
  | showRows rows =>
      exact Covers.paint (s := { s with browse := s.browse.setRows rows }) h .left
  | paintRight => exact Covers.paint h .right
  | @wake id p hidle hdirty htaken =>
      refine h.task id ?_ ?_
      · intro other hne
        refine ⟨Function.update_of_ne hne _ _, rfl, ?_⟩
        unfold arriving
        simp only [Function.update_of_ne hne]
      · intro hstale
        have hcovers := h id hstale
        rw [arriving_idle hidle, coversScreen_iff] at hcovers
        rw [arriving_inFlight (Function.update_self ..), coversScreen_iff]
        intro x y hon hne
        -- a pixel that was not encoded was on the screen before
        have hsame : (Function.update s.fb id
            { s.fb id with dirty := (s.fb id).dirty.clear } id).pixelAt x y =
              (s.fb id).pixelAt x y := by
          rw [Function.update_self]
          rfl
        rw [hsame, htaken] at hne
        split at hne
        · exact absurd rfl hne
        · next hclean => exact absurd (hcovers x y hon hne) hclean
  | @writeOk id p screens hflight hscreens =>
      refine h.task id ?_ ?_
      · intro other hne
        have hscreen : screens other = s.screens other := by
          funext x y
          rw [hscreens, if_neg (fun hboth => hne hboth.left)]
        refine ⟨rfl, rfl, ?_⟩
        unfold arriving
        simp only [Function.update_of_ne hne, hscreen]
      · intro hstale
        have hscreen : screens id = s.arriving id := by
          rw [arriving_inFlight hflight]
          funext x y
          exact (hscreens id x y).trans (if_congr (and_iff_right rfl) rfl rfl)
        rw [arriving_idle (Function.update_self ..)]
        show (s.fb id).CoversScreen (screens id)
        rw [hscreen]
        exact h id hstale
  | @writeErr id p shown hflight =>
      refine h.task id ?_ ?_
      · intro other hne
        refine ⟨rfl, Function.update_of_ne hne _ _, ?_⟩
        unfold arriving
        simp only [Function.update_of_ne hne]
      · intro hstale
        cases (Function.update_self id true s.stale).symm.trans hstale

theorem pixels_paint (s : DisplayPath) (id : DisplayId) :
    ((s.paint id).fb id).pixels = (s.browse.render id Framebuffer.new).pixels := by
  rw [fb_paint]
  exact s.browse.render_pixels id _ _

theorem painted_paintLeft (s : DisplayPath) : s.paintLeft.Painted where
  left _ := pixels_paint s .left
  current _ hpainting := by cases hpainting

/-- A step that keeps the pixels, the browse state and the repaints to come. -/
theorem Painted.congr (h : s.Painted) (hbrowse : s'.browse = s.browse)
    (hdue : s'.repaintDue = s.repaintDue) (hpainting : s'.painting = s.painting)
    (hpixels : forall id, (s'.fb id).pixels = (s.fb id).pixels) : s'.Painted := by
  refine ⟨?_, ?_⟩
  · intro hp
    rw [hpixels, hbrowse]
    exact h.left (hpainting.symm.trans hp)
  · intro hd hp id
    rw [hpixels, hbrowse]
    exact h.current (hdue.symm.trans hd) (hpainting.symm.trans hp) id

theorem Painted.step (h : s.Painted) (hstep : Performed s a s') : s'.Painted := by
  cases hstep with
  | navUpdate ev hpainting hdue =>
      refine ⟨?_, ?_⟩
      · intro hp
        cases hpainting.symm.trans hp
      · intro hunchanged _ id
        show (s.fb id).pixels =
          ((s.browse.navigate ev).1.render id Framebuffer.new).pixels
        rw [Browser.navigate_unchanged hunchanged]
        exact h.current hdue hpainting id
  | navRepaint =>
      refine ⟨(painted_paintLeft s).left, ?_⟩
      intro _ hp
      cases hp
  | showRows rows => exact painted_paintLeft { s with browse := s.browse.setRows rows }
  | paintRight hpainting =>
      refine ⟨?_, ?_⟩
      · intro hp
        cases hp
      · intro _ _ id
        cases id with
        | left =>
            have hfb : (s.paint .right).fb .left = s.fb .left :=
              fb_paint_of_ne (by decide)
            show ((s.paint .right).fb .left).pixels = _
            rw [hfb]
            exact h.left hpainting
        | right => exact pixels_paint s .right
  | @wake id p hidle hdirty htaken =>
      refine h.congr rfl rfl rfl ?_
      intro other
      rcases eq_or_ne other id with rfl | hne
      · show (Function.update s.fb other _ other).pixels = _
        rw [Function.update_self]
      · show (Function.update s.fb id _ other).pixels = _
        rw [Function.update_of_ne hne]
  | writeOk => exact h.congr rfl rfl rfl fun _ => rfl
  | writeErr => exact h.congr rfl rfl rfl fun _ => rfl

/-!
## Repaints after a failing write
-/

/-- Whether the action begins a repaint. -/
def starts (a : DisplayPathAct) : Prop :=
  match a with
  | .navRepaint => True
  | .showRows _ => True
  | _ => False

def fails (a : DisplayPathAct) : Prop :=
  match a with
  | .writeErr _ _ => True
  | _ => False

/-- No write has failed since a repaint began, the first one included. -/
def Repainted (acts : List DisplayPathAct) : Prop :=
  exists pre post, acts = pre ++ post ∧
    (forall a, pre.getLast? = some a -> starts a) ∧
    forall a, a ∈ post -> ¬ fails a

theorem repainted_of_forall {acts : List DisplayPathAct}
    (h : forall a, a ∈ acts -> ¬ fails a) : Repainted acts := by
  refine ⟨[], acts, rfl, ?_, h⟩
  intro a hlast
  cases hlast

/-- No display is stale, as far as a repaint that is under way has come. -/
structure Fresh (s : DisplayPath) : Prop where
  left : s.stale .left = false
  right : s.painting = false -> s.stale .right = false

theorem fresh_paintLeft (s : DisplayPath) : s.paintLeft.Fresh where
  left := stale_paint s .left
  right hpainting := by cases hpainting

theorem fresh_of_starts (ha : starts a) (hstep : Performed s a s') : s'.Fresh := by
  cases hstep with
  | navRepaint =>
      have hleft := fresh_paintLeft s
      exact ⟨hleft.left, hleft.right⟩
  | showRows rows => exact fresh_paintLeft { s with browse := s.browse.setRows rows }
  | navUpdate => exact ha.elim
  | paintRight => exact ha.elim
  | wake => exact ha.elim
  | writeOk => exact ha.elim
  | writeErr => exact ha.elim

theorem Fresh.step (h : s.Fresh) (ha : ¬ fails a) (hstep : Performed s a s') :
    s'.Fresh := by
  cases hstep with
  | navUpdate => exact ⟨h.left, h.right⟩
  | navRepaint hdue hpainting =>
      exact fresh_of_starts (a := .navRepaint) trivial (.navRepaint hdue hpainting)
  | showRows rows hpainting =>
      exact fresh_of_starts (a := .showRows rows) trivial (.showRows rows hpainting)
  | paintRight =>
      have hleft : (s.paint .right).stale .left = s.stale .left :=
        stale_paint_of_ne (by decide)
      exact ⟨hleft.trans h.left, fun _ => stale_paint s .right⟩
  | wake => exact ⟨h.left, h.right⟩
  | writeOk => exact ⟨h.left, h.right⟩
  | writeErr => exact absurd trivial ha

variable {initial : BrowseState} {screens : Screens} {acts : List DisplayPathAct}

theorem covers_run (h : Transition.run step (boot initial screens) acts = some s) :
    s.Covers := by
  have hboot : (boot initial screens).Covers := by
    refine Covers.paint (fun id hstale => ?_) .left
    cases hstale
  refine Transition.run_invariant_of_steps step (fun _ _ => True) hboot ?_
    (fun _ _ _ _ _ => trivial) h
  intro t a t' hcovers _ hstep
  exact hcovers.step (performed_of_step hstep)

theorem painted_run (h : Transition.run step (boot initial screens) acts = some s) :
    s.Painted := by
  refine Transition.run_invariant_of_steps step (fun _ _ => True)
    (painted_paintLeft _) ?_ (fun _ _ _ _ _ => trivial) h
  intro t a t' hpainted _ hstep
  exact hpainted.step (performed_of_step hstep)

theorem fresh_run (h : Transition.run step (boot initial screens) acts = some s)
    (hrepainted : Repainted acts) : s.Fresh := by
  rcases hrepainted with ⟨pre, post, rfl, hpre, hpost⟩
  rw [Transition.run_append] at h
  rcases Option.bind_eq_some_iff.mp h with ⟨t, ht, hrest⟩
  have hfresh : t.Fresh := by
    rcases List.eq_nil_or_concat pre with rfl | ⟨front, a, rfl⟩
    · cases ht
      exact fresh_paintLeft _
    · rw [List.concat_eq_append, Transition.run_snoc] at ht
      rcases Option.bind_eq_some_iff.mp ht with ⟨u, _, hstep⟩
      refine fresh_of_starts (hpre a ?_) (performed_of_step hstep)
      rw [List.concat_eq_append, List.getLast?_concat]
  refine Transition.run_invariant_of_steps step (fun _ a => ¬ fails a) hfresh ?_ ?_ hrest
  · intro u a u' hu ha hstep
    exact hu.step ha (performed_of_step hstep)
  · intro front a u hfront _
    exact hpost a (hfront.subset (List.mem_append_right _ (List.mem_singleton.mpr rfl)))

/-- What a display shows when nothing is to be painted, encoded or written for it. -/
theorem shown_of_rest (hcovers : s.Covers) (hpainted : s.Painted) (hfresh : s.Fresh)
    (hdue : s.repaintDue = false) (hpainting : s.painting = false) {id : DisplayId}
    (hidle : s.inFlight id = none) (hclean : (s.fb id).isDirty = false) {x y : Nat}
    (hon : OnScreen x y) :
    s.screens id x y = (s.browse.render id Framebuffer.new).pixelAt x y := by
  have hstale : s.stale id = false := by
    cases id with
    | left => exact hfresh.left
    | right => exact hfresh.right hpainting
  have hcovered := hcovers id hstale
  rw [arriving_idle hidle, coversScreen_iff] at hcovered
  have hpixels : (s.fb id).pixelAt x y =
      (s.browse.render id Framebuffer.new).pixelAt x y := by
    unfold pixelAt
    rw [hpainted.current hdue hpainting id]
  rw [← hpixels]
  apply Classical.byContradiction
  intro hne
  have hdirty := isDirty_of_marked (hcovered x y hon (Ne.symm hne))
  cases hclean.symm.trans hdirty

/-- In every interleaving of the events, the queries, the repaints, the two display
tasks and their writes, over whatever the device showed before: a display for which
nothing is to be painted, encoded or written shows the picture of the browse state, to
the pixel, as long as no write has failed since the last repaint began. -/
theorem pictures_shown_run
    (h : Transition.run step (boot initial screens) acts = some s)
    (hrepainted : Repainted acts) (hdue : s.repaintDue = false)
    (hpainting : s.painting = false) {id : DisplayId} (hidle : s.inFlight id = none)
    (hclean : (s.fb id).isDirty = false) {x y : Nat} (hon : OnScreen x y) :
    s.screens id x y = (s.browse.render id Framebuffer.new).pixelAt x y :=
  shown_of_rest (covers_run h) (painted_run h) (fresh_run h hrepainted) hdue hpainting
    hidle hclean hon

/-- A task that is woken and can write brings its display up to date. -/
theorem exists_written {id : DisplayId} (hidle : s.inFlight id = none)
    (hdirty : (s.fb id).isDirty = true) :
    exists s', Transition.run step s [.wake id, .writeOk id] = some s' ∧
      s'.inFlight id = none ∧ (s'.fb id).isDirty = false ∧
      s'.repaintDue = s.repaintDue ∧ s'.painting = s.painting := by
  rcases encode_dirty hdirty with ⟨p, _, hencode⟩
  rcases show_inFlight p s.screens with ⟨screens, hshow, _⟩
  refine ⟨{ s with
    fb := Function.update s.fb id { s.fb id with dirty := (s.fb id).dirty.clear }
    screens := screens
    inFlight := Function.update (Function.update s.inFlight id (some p)) id none },
    ?_, ?_, ?_, rfl, rfl⟩
  · have hwake : step s (.wake id) = s.encode id := by
      simp only [step, hidle]
    rw [Transition.run_cons, hwake, hencode, Option.bind_some, Transition.run_cons]
    simp only [step, Function.update_self, hshow, Option.map_some, Option.bind_some,
      Transition.run_nil]
  · exact Function.update_self ..
  · show (Function.update s.fb id _ id).isDirty = false
    rw [Function.update_self]
    exact isDirty_clear _

theorem exists_firstPicture (hpainting : s.painting = true) (hdue : s.repaintDue = false)
    (hidle : s.inFlight .left = none) (hdirty : (s.fb .left).isDirty = true) :
    exists s', Transition.run step s [.paintRight, .wake .left, .writeOk .left] = some s' ∧
      s'.inFlight .left = none ∧ (s'.fb .left).isDirty = false ∧
      s'.repaintDue = false ∧ s'.painting = false := by
  let t : DisplayPath := { s.paint .right with painting := false }
  have hpaint : step s .paintRight = some t := by
    simp only [step, hpainting, if_true, t]
  have hfb : (s.paint .right).fb .left = s.fb .left := fb_paint_of_ne (by decide)
  have hdirty' : (t.fb .left).isDirty = true := by
    show ((s.paint .right).fb .left).isDirty = true
    rw [hfb]
    exact hdirty
  rcases exists_written (s := t) hidle hdirty' with
    ⟨s', hrun, hidle', hclean, hdue', hpainting'⟩
  refine ⟨s', ?_, hidle', hclean, hdue'.trans hdue, hpainting'⟩
  rw [Transition.run_cons, hpaint]
  exact hrun

theorem pictures_shown_firstPicture :
    exists s, Transition.run step (boot {} fun _ _ _ => 7)
        [.paintRight, .wake .left, .writeOk .left] = some s ∧
      forall x y, OnScreen x y ->
        s.screens .left x y = (s.browse.render .left Framebuffer.new).pixelAt x y := by
  have hrepainted : Repainted [.paintRight, .wake .left, .writeOk .left] := by
    refine repainted_of_forall ?_
    intro a ha
    simp only [List.mem_cons, List.not_mem_nil, or_false] at ha
    rcases ha with rfl | rfl | rfl <;> exact id
  have hfb : (boot {} fun _ _ _ => 7).fb .left =
      BrowseState.render {} .left Framebuffer.new := fb_paint _ .left
  have hdirty : ((boot {} fun _ _ _ => 7).fb .left).isDirty = true := by
    have hon : OnScreen 0 0 := by decide
    rw [hfb]
    exact isDirty_of_marked (marked_render {} .left Framebuffer.new hon)
  rcases exists_firstPicture rfl rfl rfl hdirty with
    ⟨s, hrun, hidle, hclean, hdue, hpainting⟩
  refine ⟨s, hrun, ?_⟩
  intro x y hon
  exact pictures_shown_run hrun hrepainted hdue hpainting hidle hclean hon

/-!
## Coming to rest
-/

/-- The actions that remain when no event and no query comes: the repaints and what the
display tasks make of them. -/
def remains (a : DisplayPathAct) : Prop :=
  match a with
  | .navRepaint => True
  | .paintRight => True
  | .wake _ => True
  | .writeOk _ => True
  | _ => False

def taskWork (s : DisplayPath) (id : DisplayId) : Nat :=
  (if (s.fb id).isDirty then 2 else 0) + (if (s.inFlight id).isSome then 1 else 0)

/-- How many such actions there can be: a repaint makes work for both tasks. -/
def work (s : DisplayPath) : Nat :=
  (if s.repaintDue then 6 else 0) + (if s.painting then 3 else 0) +
    (s.taskWork .left + s.taskWork .right)

theorem taskWork_le (s : DisplayPath) (id : DisplayId) : s.taskWork id ≤ 3 := by
  unfold taskWork
  split <;> split <;> omega

theorem work_le (s : DisplayPath) : s.work ≤ 15 := by
  have hleft := taskWork_le s .left
  have hright := taskWork_le s .right
  unfold work
  split <;> split <;> omega

/-- The task of one display works while the other keeps its work. -/
theorem work_lt_of_task (id : DisplayId) (hdue : s'.repaintDue = s.repaintDue)
    (hpainting : s'.painting = s.painting)
    (hother : forall other, other ≠ id -> s'.taskWork other = s.taskWork other)
    (hid : s'.taskWork id < s.taskWork id) : s'.work < s.work := by
  unfold work
  rw [hdue, hpainting]
  cases id with
  | left =>
      have hright := hother .right (by decide)
      omega
  | right =>
      have hleft := hother .left (by decide)
      omega

theorem taskWork_paint_le (s : DisplayPath) (id : DisplayId) :
    (s.paint id).taskWork id ≤ s.taskWork id + 2 := by
  unfold taskWork
  show (if ((s.paint id).fb id).isDirty then 2 else 0) +
    (if (s.inFlight id).isSome then 1 else 0) ≤ _
  split <;> omega

theorem taskWork_paint_of_ne {id other : DisplayId} (h : other ≠ id) :
    (s.paint id).taskWork other = s.taskWork other := by
  unfold taskWork
  rw [fb_paint_of_ne h]
  rfl

theorem work_lt_of_remains (ha : remains a) (hstep : Performed s a s') :
    s'.work < s.work := by
  cases hstep with
  | navUpdate => exact ha.elim
  | showRows => exact ha.elim
  | writeErr => exact ha.elim
  | navRepaint hdue hpainting =>
      have hleft := taskWork_paint_le s .left
      have hright : (s.paint .left).taskWork .right = s.taskWork .right :=
        taskWork_paint_of_ne (by decide)
      show 0 + 3 + ((s.paint .left).taskWork .left + (s.paint .left).taskWork .right) < _
      unfold work
      rw [hdue, hpainting, hright]
      simp only [if_true, Bool.false_eq_true, if_false]
      omega
  | paintRight hpainting =>
      have hright := taskWork_paint_le s .right
      have hleft : (s.paint .right).taskWork .left = s.taskWork .left :=
        taskWork_paint_of_ne (by decide)
      show (if s.repaintDue then 6 else 0) + 0 +
        ((s.paint .right).taskWork .left + (s.paint .right).taskWork .right) < _
      unfold work
      rw [hpainting, hleft]
      simp only [if_true]
      omega
  | @wake id p hidle hdirty htaken =>
      refine work_lt_of_task id rfl rfl ?_ ?_
      · intro other hne
        unfold taskWork
        simp only [Function.update_of_ne hne]
      · unfold taskWork
        simp only [Function.update_self, hidle, hdirty, isDirty_clear]
        simp
  | @writeOk id p screens hflight =>
      refine work_lt_of_task id rfl rfl ?_ ?_
      · intro other hne
        unfold taskWork
        simp only [Function.update_of_ne hne]
      · unfold taskWork
        simp only [Function.update_self, hflight]
        simp

theorem kept_of_remains (ha : remains a) (hstep : Performed s a s') :
    s'.browse = s.browse ∧ ¬ fails a := by
  cases hstep with
  | navUpdate => exact ha.elim
  | showRows => exact ha.elim
  | writeErr => exact ha.elim
  | navRepaint => exact ⟨rfl, id⟩
  | paintRight => exact ⟨rfl, id⟩
  | wake => exact ⟨rfl, id⟩
  | writeOk => exact ⟨rfl, id⟩

/-- What no such action can change any more. -/
theorem rest_of_settled (h : Transition.Settled step remains s) :
    s.repaintDue = false ∧ s.painting = false ∧
      forall id, s.inFlight id = none ∧ (s.fb id).isDirty = false := by
  have hpainting : s.painting = false := by
    cases hpainting : s.painting with
    | false => rfl
    | true =>
        have hnone := h .paintRight trivial
        simp [step, hpainting] at hnone
  refine ⟨?_, hpainting, ?_⟩
  · cases hdue : s.repaintDue with
    | false => rfl
    | true =>
        have hnone := h .navRepaint trivial
        simp [step, hdue, hpainting] at hnone
  · intro id
    cases hflight : s.inFlight id with
    | some p =>
        have hnone := h (.writeOk id) trivial
        rcases show_inFlight p s.screens with ⟨screens, hshow, _⟩
        simp [step, hflight, hshow] at hnone
    | none =>
        refine ⟨rfl, ?_⟩
        cases hdirty : (s.fb id).isDirty with
        | false => rfl
        | true =>
            have hnone := h (.wake id) trivial
            rcases encode_dirty hdirty with ⟨p, _, hencode⟩
            simp [step, hflight, hencode] at hnone

/-- The states from which a picture is on its way. -/
structure Coming (b : BrowseState) (s : DisplayPath) : Prop where
  browse : s.browse = b
  covers : s.Covers
  painted : s.Painted
  fresh : s.Fresh

theorem Coming.step {b : BrowseState} (h : s.Coming b) (ha : remains a)
    (hstep : Performed s a s') : s'.Coming b := by
  rcases kept_of_remains ha hstep with ⟨hbrowse, hfails⟩
  exact
    { browse := hbrowse.trans h.browse
      covers := h.covers.step hstep
      painted := h.painted.step hstep
      fresh := h.fresh.step hfails hstep }

/-- From any state reached without a failing write since the last repaint began, when
no more events and queries come, at most fifteen repaints, encodings and writes remain,
in whatever order, and when none is left both displays show the browse state to the
pixel. -/
theorem pictures_settle_run
    (h : Transition.run step (boot initial screens) acts = some s)
    (hrepainted : Repainted acts) :
    (forall xs s', (forall a, a ∈ xs -> remains a) -> Transition.run step s xs = some s' ->
      xs.length ≤ 15 ∧ (Transition.Settled step remains s' ->
        forall id x y, OnScreen x y ->
          s'.screens id x y = (s.browse.render id Framebuffer.new).pixelAt x y)) ∧
      exists xs s', (forall a, a ∈ xs -> remains a) ∧ Transition.run step s xs = some s' ∧
        Transition.Settled step remains s' := by
  have hcoming : s.Coming s.browse :=
    ⟨rfl, covers_run h, painted_run h, fresh_run h hrepainted⟩
  have hdown : forall t a t', t.Coming s.browse -> remains a -> step t a = some t' ->
      t'.Coming s.browse ∧ t'.work < t.work := by
    intro t a t' ht ha hstep
    have hperformed := performed_of_step hstep
    exact ⟨ht.step ha hperformed, work_lt_of_remains ha hperformed⟩
  refine ⟨?_, Transition.exists_settled hdown hcoming⟩
  intro xs s' hxs hrun
  rcases Transition.length_add_work_le hdown hxs hcoming hrun with ⟨hend, hlength⟩
  have hwork := work_le s
  refine ⟨by omega, ?_⟩
  intro hsettled id x y hon
  rcases rest_of_settled hsettled with ⟨hdue, hpainting, htasks⟩
  rw [← hend.browse]
  exact shown_of_rest hend.covers hend.painted hend.fresh hdue hpainting
    (htasks id).left (htasks id).right hon

theorem pictures_settle_turned :
    exists s, Transition.run step (boot {} fun _ _ _ => 7)
        [.paintRight, .navUpdate (.macroEncoder 2 1 0)] = some s ∧
      s.repaintDue = true ∧
      (forall xs s', (forall a, a ∈ xs -> remains a) ->
        Transition.run step s xs = some s' ->
        xs.length ≤ 15 ∧ (Transition.Settled step remains s' ->
          forall id x y, OnScreen x y ->
            s'.screens id x y = (s.browse.render id Framebuffer.new).pixelAt x y)) ∧
      exists xs s', (forall a, a ∈ xs -> remains a) ∧ Transition.run step s xs = some s' ∧
        Transition.Settled step remains s' := by
  have hrepainted : Repainted [.paintRight, .navUpdate (.macroEncoder 2 1 0)] := by
    refine repainted_of_forall ?_
    intro a ha
    simp only [List.mem_cons, List.not_mem_nil, or_false] at ha
    rcases ha with rfl | rfl <;> exact id
  exact ⟨_, rfl, rfl, pictures_settle_run rfl hrepainted⟩

end DisplayPath

end Daemon
end OpenMk3
