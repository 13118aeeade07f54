import OpenMk3.Display.Sync

/-!
# Display task

The scheduler task of one display as a system of atomic steps: `modify` under
the framebuffer lock, waking and encoding under the lock, and the transfer to
the device, which succeeds or fails.  The encoder empties the dirty set before
the result of the transfer is known, and the main theorem says what a failing
write costs.
-/

namespace OpenMk3
namespace Display

open Library Proto

/-- A closure of `modify` that marks what it changes. -/
structure Edit where
  apply : Framebuffer -> Framebuffer
  drawn : forall fb : Framebuffer, fb.DrawnTo (apply fb)

def Edit.ofDraws (ops : List DrawOp) : Edit :=
  { apply := fun fb => ops.foldl DrawOp.apply fb
    drawn := fun fb => Framebuffer.drawnTo_foldl fb ops }

/-- A payload on its way to the device and the framebuffer it was made from. -/
structure InFlight (id : DisplayId) where
  taken : Framebuffer
  payload : List UInt8
  encoded : (encodeFrame id taken).map Prod.fst = some payload

/-- The framebuffer of a handle, its scheduler task and the device. -/
structure DisplayTask (id : DisplayId) where
  fb : Framebuffer
  screens : Screens
  task : Option (InFlight id)

inductive Act where
  | modify (f : Edit)
  | wake
  | writeOk
  | writeErr

namespace DisplayTask

variable {id : DisplayId}

def start (screens : Screens) : DisplayTask id :=
  { fb := Framebuffer.new, screens := screens, task := none }

/-- Encode under the lock when anything is dirty. -/
def wakeUp (s : DisplayTask id) : Option (DisplayTask id) :=
  if s.fb.isDirty then
    match h : encodeFrame id s.fb with
    | none => none
    | some (payload, fb) =>
        some
          { s with
            fb := fb
            task := some
              { taken := s.fb, payload := payload, encoded := by rw [h]; rfl } }
  else some s

def step : Transition (DisplayTask id) Act
  | s, .modify f => some { s with fb := f.apply s.fb }
  | s, .wake =>
      match s.task with
      | none => s.wakeUp
      | some _ => none
  | s, .writeOk =>
      match s.task with
      | none => none
      | some p =>
          (showTransfer s.screens p.payload).map fun screens =>
            { s with screens := screens, task := none }
  | s, .writeErr =>
      -- The task logs, sleeps and goes back to waiting; the payload is gone.
      match s.task with
      | none => none
      | some _ => some { s with task := none }

/-!
## What each step does
-/

theorem payload_eq (p : InFlight id) : p.payload = frameBytes id p.taken := by
  have h := p.encoded
  rw [encodeFrame_eq] at h
  exact (Option.some.inj h).symm

/-- Waking up encodes a dirty framebuffer and does nothing on a clean one. -/
theorem wakeUp_cases (s : DisplayTask id) :
    (s.fb.isDirty = true ∧ exists p : InFlight id, p.taken = s.fb ∧
      s.wakeUp = some
        { s with
          fb := { s.fb with dirty := s.fb.dirty.clear }
          task := some p }) ∨
    (s.fb.isDirty = false ∧ s.wakeUp = some s) := by
  cases hdirty : s.fb.isDirty with
  | false => exact Or.inr ⟨rfl, by rw [wakeUp, hdirty]; rfl⟩
  | true =>
      refine Or.inl ⟨rfl, ⟨s.fb, frameBytes id s.fb, ?_⟩, rfl, ?_⟩
      · rw [encodeFrame_eq]
        rfl
      · rw [wakeUp, hdirty, if_pos rfl]
        split
        · rename_i hnone
          rw [encodeFrame_eq] at hnone
          cases hnone
        · rename_i hsome
          have heq := hsome
          rw [encodeFrame_eq] at heq
          cases heq
          rfl

theorem show_payload (p : InFlight id) (screens : Screens) :
    exists screens', showTransfer screens p.payload = some screens' ∧
      forall x y, screens' id x y =
        if p.taken.Marked x y then p.taken.pixelAt x y
        else screens id x y := by
  rcases showTransfer_frameBytes id p.taken screens with
    ⟨screens', hshow, hpixels⟩
  rw [← payload_eq] at hshow
  refine ⟨screens', hshow, ?_⟩
  intro x y
  rw [hpixels id x y]
  exact if_congr (and_iff_right rfl) rfl rfl

/-- Modifying is always possible; the task writes only after it encoded. -/
theorem step_isSome (s : DisplayTask id) (a : Act) :
    (step s a).isSome = true <->
      match a with
      | .modify _ => True
      | .wake => s.task = none
      | .writeOk => s.task ≠ none
      | .writeErr => s.task ≠ none := by
  cases a with
  | modify f => simp [step]
  | wake =>
      cases htask : s.task with
      | some p => simp [step, htask]
      | none =>
          rcases wakeUp_cases s with ⟨_, p, _, hwake⟩ | ⟨_, hwake⟩
          · simp [step, htask, hwake]
          · simp [step, htask, hwake]
  | writeOk =>
      cases htask : s.task with
      | none => simp [step, htask]
      | some p =>
          rcases show_payload p s.screens with ⟨screens', hshow, _⟩
          simp [step, htask, hshow]
  | writeErr =>
      cases htask : s.task with
      | none => simp [step, htask]
      | some p => simp [step, htask]

/-!
## The invariant of the task
-/

/-- Every pixel on which the device and the framebuffer differ is dirty. -/
def InSync (s : DisplayTask id) : Prop :=
  forall x y, Framebuffer.OnScreen x y ->
    s.fb.pixelAt x y ≠ s.screens id x y ->
      s.fb.dirty.isTileDirty (x / tile) (y / tile) = true

/-- Every pixel that the payload in flight was to bring to the device has been
marked dirty again. -/
def Redrawn (s : DisplayTask id) : Prop :=
  forall p, s.task = some p -> forall x y, Framebuffer.OnScreen x y ->
    p.taken.pixelAt x y ≠ s.screens id x y ->
      s.fb.dirty.isTileDirty (x / tile) (y / tile) = true

/--
An idle task is in sync.  While a payload is in flight, the framebuffer it was
made from covers the device, and the live framebuffer covers that one.
-/
def Tracks (s : DisplayTask id) : Prop :=
  match s.task with
  | none => s.fb.CoversScreen (s.screens id)
  | some p =>
      p.taken.CoversScreen (s.screens id) ∧ s.fb.CoversScreen p.taken.pixelAt

theorem tracks_of_idle {s : DisplayTask id} (h : s.task = none) :
    s.Tracks <-> s.fb.CoversScreen (s.screens id) := by
  rw [Tracks, h]

theorem tracks_of_writing {s : DisplayTask id} {p : InFlight id}
    (h : s.task = some p) :
    s.Tracks <-> p.taken.CoversScreen (s.screens id) ∧
      s.fb.CoversScreen p.taken.pixelAt := by
  rw [Tracks, h]

theorem inSync_iff (s : DisplayTask id) :
    s.InSync <-> s.fb.CoversScreen (s.screens id) :=
  (Framebuffer.coversScreen_iff s.fb (s.screens id)).symm

/-- Losing a payload keeps the device covered exactly when it was redrawn. -/
theorem covers_iff_redrawn {s : DisplayTask id} {p : InFlight id}
    (htask : s.task = some p) (h : s.Tracks) :
    s.fb.CoversScreen (s.screens id) <-> s.Redrawn := by
  have hcovers := ((tracks_of_writing htask).mp h).right
  have hiff : s.fb.CoversScreen (s.screens id) <->
      forall x y, Framebuffer.OnScreen x y ->
        p.taken.pixelAt x y ≠ s.screens id x y -> s.fb.Marked x y :=
    hcovers.iff_of_covered.trans
      (Framebuffer.coversScreen_iff { p.taken with dirty := s.fb.dirty } _)
  rw [hiff]
  constructor
  · intro hall p' hp'
    rw [htask] at hp'
    cases hp'
    exact hall
  · intro hall
    exact hall p htask

theorem step_tracks {s s' : DisplayTask id} {a : Act} (h : s.Tracks)
    (hok : a = .writeErr -> s.Redrawn) (hstep : step s a = some s') :
    s'.Tracks := by
  cases a with
  | modify f =>
      cases hstep
      have hdrawn := f.drawn s.fb
      cases htask : s.task with
      | none =>
          rw [tracks_of_idle htask] at h
          exact (tracks_of_idle rfl).mpr (h.marks hdrawn)
      | some p =>
          rw [tracks_of_writing htask] at h
          exact (tracks_of_writing rfl).mpr ⟨h.left, h.right.marks hdrawn⟩
  | wake =>
      cases htask : s.task with
      | some p => simp [step, htask] at hstep
      | none =>
          simp only [step, htask] at hstep
          rcases wakeUp_cases s with ⟨_, p, htaken, hwake⟩ | ⟨_, hwake⟩
          · rw [hwake] at hstep
            cases hstep
            rw [tracks_of_idle htask, ← htaken] at h
            refine (tracks_of_writing rfl).mpr ⟨h, ?_⟩
            rw [htaken]
            exact Covered.refl _ _
          · rw [hwake] at hstep
            cases hstep
            exact h
  | writeOk =>
      cases htask : s.task with
      | none => simp [step, htask] at hstep
      | some p =>
          rw [tracks_of_writing htask] at h
          rcases show_payload p s.screens with ⟨screens', hshow, hpixels⟩
          simp only [step, htask, hshow, Option.map_some] at hstep
          cases hstep
          have hshown := Framebuffer.shownOn_of_copied h.left hpixels
          exact (tracks_of_idle rfl).mpr
            (Framebuffer.coversScreen_trans h.right hshown)
  | writeErr =>
      cases htask : s.task with
      | none => simp [step, htask] at hstep
      | some p =>
          simp only [step, htask] at hstep
          cases hstep
          exact (tracks_of_idle rfl).mpr
            ((covers_iff_redrawn htask h).mpr (hok rfl))

theorem tracks_start {screens : Screens}
    (h : Framebuffer.new.ShownOn (screens id)) :
    (start screens : DisplayTask id).Tracks :=
  Framebuffer.coversScreen_of_shownOn h

/-- A failing write leaves an idle task, in sync only if it was redrawn. -/
theorem writeErr_cases {s : DisplayTask id} (h : s.Tracks) :
    s.Redrawn ∨ exists s', step s .writeErr = some s' ∧ s'.task = none ∧
      (s'.InSync -> s.Redrawn) := by
  cases htask : s.task with
  | none =>
      apply Or.inl
      intro p hp
      rw [htask] at hp
      cases hp
  | some p =>
      refine Or.inr ⟨{ s with task := none }, ?_, rfl, ?_⟩
      · simp only [step, htask]
      · intro hsync
        exact (covers_iff_redrawn htask h).mp ((inSync_iff _).mp hsync)

/-!
## Failing writes
-/

/--
Along any run from a device that shows the new framebuffer, every idle state is
in sync if and only if each failing write finds its payload redrawn.
-/
theorem idle_inSync_iff (screens : Screens)
    (hstart : Framebuffer.new.ShownOn (screens id)) (acts : List Act) :
    (forall pre s, pre <+: acts ->
      Transition.run step (start screens : DisplayTask id) pre = some s ->
        s.task = none -> s.InSync) <->
    (forall pre s, pre ++ [.writeErr] <+: acts ->
      Transition.run step (start screens : DisplayTask id) pre = some s ->
        s.Redrawn) := by
  have hinit := tracks_start hstart
  constructor
  · intro hidle pre s hpre hrun
    have hsnoc : forall front a (t t' : DisplayTask id),
        front ++ [a] <+: acts ->
        Transition.run step (start screens) front = some t ->
          step t a = some t' -> t'.task = none -> t'.InSync := by
      intro front a t t' hfront ht ht' htask
      apply hidle (front ++ [a]) t' hfront _ htask
      rw [Transition.run_snoc, ht]
      exact ht'
    have htracks : s.Tracks := by
      refine Transition.run_invariant_of_steps step
        (fun t a => forall t', step t a = some t' -> t'.task = none ->
          t'.InSync) hinit ?_ ?_ hrun
      · intro t a t' ht hok hstep
        apply step_tracks ht _ hstep
        intro ha
        subst ha
        rcases writeErr_cases ht with hredrawn | ⟨t'', hstep', hnone, himp⟩
        · exact hredrawn
        · exact himp (hok t'' hstep' hnone)
      · intro front a t hfront ht t' hstep htask
        exact hsnoc front a t t'
          ((hfront.trans (List.prefix_append pre _)).trans hpre) ht hstep htask
    rcases writeErr_cases htracks with hredrawn | ⟨s', hstep, hnone, himp⟩
    · exact hredrawn
    · exact himp (hsnoc pre .writeErr s s' hpre hrun hstep hnone)
  · intro hredrawn pre s hpre hrun htask
    have htracks : s.Tracks := by
      refine Transition.run_invariant_of_steps step
        (fun t a => a = .writeErr -> t.Redrawn) hinit ?_ ?_ hrun
      · intro t a t' ht hok hstep
        exact step_tracks ht hok hstep
      · intro front a t hfront ht ha
        subst ha
        exact hredrawn front t (hfront.trans hpre) ht
    exact (inSync_iff s).mpr ((tracks_of_idle htask).mp htracks)

def blankScreens : Screens := fun _ _ _ => 0

theorem shownOn_blank (id : DisplayId) :
    Framebuffer.new.ShownOn (blankScreens id) := by
  intro x y _
  exact (Framebuffer.pixelAt_new x y).symm

def drawPixel : List Act :=
  [.modify (Edit.ofDraws [.setPixel 0 0 Rgb.white]), .wake]

/-- When the write of the pixel succeeds, no idle state is out of sync. -/
theorem idle_inSync_of_writeOk :
    Framebuffer.new.ShownOn (blankScreens .left) ∧
      forall pre s, pre <+: drawPixel ++ [.writeOk] ->
        Transition.run step (start blankScreens : DisplayTask .left) pre =
          some s -> s.task = none -> s.InSync := by
  refine ⟨shownOn_blank .left,
    (idle_inSync_iff blankScreens (shownOn_blank .left) _).mpr ?_⟩
  intro pre s hpre _
  have hmem : Act.writeErr ∈ drawPixel ++ [.writeOk] :=
    hpre.subset (List.mem_append_right pre List.mem_cons_self)
  simp [drawPixel] at hmem

def onePixel : Framebuffer := Framebuffer.new.setPixel 0 0 Rgb.white

theorem isDirty_onePixel : onePixel.isDirty = true := by
  have hon : Framebuffer.OnScreen 0 0 := by decide
  have hmarked : onePixel.Marked 0 0 :=
    (Framebuffer.marked_setPixel _ 0 0 Rgb.white hon).mpr
      (Or.inr ⟨hon, rfl, rfl⟩)
  exact Framebuffer.isDirty_of_marked hmarked

theorem pixelAt_onePixel : onePixel.pixelAt 0 0 = Rgb.white.toRgb565 := by
  have hon : Framebuffer.OnScreen 0 0 := by decide
  rw [onePixel, Framebuffer.pixelAt_setPixel _ 0 0 Rgb.white hon]
  exact if_pos ⟨rfl, rfl⟩

theorem run_failing_write (screens : Screens) (f : Edit)
    (hdirty : (f.apply Framebuffer.new).isDirty = true) :
    Transition.run step (start screens : DisplayTask id)
        [.modify f, .wake, .writeErr] =
      some
        { fb := { f.apply Framebuffer.new with
            dirty := (f.apply Framebuffer.new).dirty.clear }
          screens := screens
          task := none } := by
  rcases @wakeUp_cases id
    { fb := f.apply Framebuffer.new, screens := screens, task := none } with
    ⟨_, p, _, hwake⟩ | ⟨hclean, _⟩
  · simp only [Transition.run_cons, Transition.run_nil, step, start,
      Option.bind_some, hwake]
  · rw [hdirty] at hclean
    cases hclean

/-- When it fails, the pixel is missing on the device and no longer dirty. -/
theorem failing_write_loses_pixel :
    Framebuffer.new.ShownOn (blankScreens .left) ∧
      exists s, Transition.run step (start blankScreens : DisplayTask .left)
          (drawPixel ++ [.writeErr]) = some s ∧
        s.task = none ∧ s.fb.pixelAt 0 0 ≠ s.screens .left 0 0 ∧
          s.fb.dirty.isTileDirty 0 0 = false := by
  refine ⟨shownOn_blank .left, _, run_failing_write blankScreens _
    isDirty_onePixel, rfl, ?_,
    DirtyTracker.isTileDirty_clear onePixel.dirty 0 0⟩
  show onePixel.pixelAt 0 0 ≠ 0
  rw [pixelAt_onePixel]
  decide

end DisplayTask

end Display
end OpenMk3
