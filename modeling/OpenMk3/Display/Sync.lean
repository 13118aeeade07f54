import OpenMk3.Display.Reader
import OpenMk3.Library.Transition
import OpenMk3.Library.WriteBack

/-!
# Drawing and sending

Every way of drawing on a framebuffer marks the tiles of the pixels it changes.
Over any interleaving of drawing and encoding, the pixels that differ from the
last encoded frame lie in dirty tiles, so a screen that shows every transfer
follows the framebuffer.
-/

namespace OpenMk3
namespace Display

open Library Proto

namespace Framebuffer

/-!
## Framebuffers as write-back copies
-/

abbrev Position : Type := Fin screenW × Fin screenH

/-- The values of a raster on the screen. -/
def onPositions (s : Raster UInt16) : Position -> UInt16 :=
  fun p => s p.1.val p.2.val

/-- The positions whose tile is marked. -/
def dirtyPositions (fb : Framebuffer) : Set Position :=
  fun p => fb.Marked p.1.val p.2.val

theorem onScreen_position (p : Position) : OnScreen p.1.val p.2.val :=
  ⟨p.1.isLt, p.2.isLt⟩

/-- Drawing from one framebuffer to the next marks every changed pixel. -/
def DrawnTo (fb fb' : Framebuffer) : Prop :=
  Marks (onPositions fb.pixelAt) (onPositions fb'.pixelAt) fb.dirtyPositions
    fb'.dirtyPositions

theorem drawnTo_of_forall {fb fb' : Framebuffer}
    (hchanged : forall x y, OnScreen x y -> ¬ fb'.Marked x y ->
      fb'.pixelAt x y = fb.pixelAt x y)
    (hkept : forall x y, OnScreen x y -> fb.Marked x y -> fb'.Marked x y) :
    fb.DrawnTo fb' :=
  { changed := fun p hp => hchanged _ _ (onScreen_position p) hp
    kept := fun p hp => hkept _ _ (onScreen_position p) hp }

end Framebuffer

open Framebuffer (OnScreen)

/-!
## Drawing operations
-/

/-- Assign one pixel through the slice of `pixels_mut`. -/
def Framebuffer.writeRaw (fb : Framebuffer) (i : Fin pixelCount)
    (v : UInt16) : Framebuffer :=
  { fb with pixels := fb.pixels.set i.val v i.isLt }

inductive RawAction where
  | write (i : Fin pixelCount) (v : UInt16)
  | touch (x y w h : UInt16)

def RawAction.apply (fb : Framebuffer) : RawAction -> Framebuffer
  | write i v => fb.writeRaw i v
  | touch x y w h => fb.touch x y w h

/-- Raw writes taken together with touches that cover the written pixels. -/
structure RawDraw where
  actions : List RawAction
  covered : forall i v, RawAction.write i v ∈ actions ->
    exists x y w h, RawAction.touch x y w h ∈ actions ∧
      Raster.InRect x.toNat y.toNat w.toNat h.toNat (i.val % screenW)
        (i.val / screenW)

inductive DrawOp where
  | setPixel (x y : UInt16) (c : Rgb)
  | fillRect (x y w h : UInt16) (c : Rgb)
  | clear (c : Rgb)
  | raw (r : RawDraw)

def DrawOp.apply (fb : Framebuffer) : DrawOp -> Framebuffer
  | setPixel x y c => fb.setPixel x y c
  | fillRect x y w h c => fb.fillRect x y w h c
  | clear c => fb.clear c
  | raw r => r.actions.foldl RawAction.apply fb

namespace Framebuffer

/-!
## Raw writes
-/

theorem pixelAt_writeRaw (fb : Framebuffer) (i : Fin pixelCount) (v : UInt16)
    {x y : Nat} (h : OnScreen x y)
    (hne : ¬ (x = i.val % screenW ∧ y = i.val / screenW)) :
    (fb.writeRaw i v).pixelAt x y = fb.pixelAt x y := by
  have hidx : ¬ i.val = y * screenW + x := by
    rw [onScreen_iff] at h
    simp only [screenW, DisplayId.width] at hne ⊢
    omega
  simp only [pixelAt, writeRaw, Vector.getElem?_set, if_neg hidx]

theorem marked_foldl_of_marked (actions : List RawAction) (fb : Framebuffer)
    {x y : Nat} (hon : OnScreen x y) (h : fb.Marked x y) :
    (actions.foldl RawAction.apply fb).Marked x y := by
  induction actions generalizing fb with
  | nil => exact h
  | cons a rest ih =>
      apply ih
      cases a with
      | write i v => exact h
      | touch tx ty w h' =>
          exact (marked_touch fb tx ty w h' hon).mpr (Or.inl h)

theorem marked_foldl_of_touch (actions : List RawAction) (fb : Framebuffer)
    {tx ty w h : UInt16} (hmem : RawAction.touch tx ty w h ∈ actions)
    {x y : Nat} (hon : OnScreen x y)
    (hin : Raster.InRect tx.toNat ty.toNat w.toNat h.toNat x y) :
    (actions.foldl RawAction.apply fb).Marked x y := by
  induction actions generalizing fb with
  | nil => cases hmem
  | cons a rest ih =>
      rcases List.mem_cons.mp hmem with heq | hrest
      · subst heq
        apply marked_foldl_of_marked rest _ hon
        exact (marked_touch fb tx ty w h hon).mpr (Or.inr ⟨x, y, hin, rfl, rfl⟩)
      · exact ih (RawAction.apply fb a) hrest

theorem pixelAt_foldl (actions : List RawAction) (fb : Framebuffer)
    {x y : Nat} (hon : OnScreen x y)
    (hnot : forall i v, RawAction.write i v ∈ actions ->
      ¬ (x = i.val % screenW ∧ y = i.val / screenW)) :
    (actions.foldl RawAction.apply fb).pixelAt x y = fb.pixelAt x y := by
  induction actions generalizing fb with
  | nil => rfl
  | cons a rest ih =>
      have hrest := ih (RawAction.apply fb a)
        (fun i v hmem => hnot i v (List.mem_cons_of_mem a hmem))
      rw [List.foldl_cons, hrest]
      cases a with
      | write i v =>
          exact pixelAt_writeRaw fb i v hon (hnot i v List.mem_cons_self)
      | touch tx ty w h => rfl

/-!
## Each operation marks what it draws
-/

theorem drawnTo_setPixel (fb : Framebuffer) (x y : UInt16) (c : Rgb) :
    fb.DrawnTo (fb.setPixel x y c) := by
  apply drawnTo_of_forall
  · intro px py hon hnot
    rw [marked_setPixel fb x y c hon] at hnot
    rw [pixelAt_setPixel fb x y c hon, if_neg]
    intro heq
    apply hnot
    rw [← heq.left, ← heq.right]
    exact Or.inr ⟨hon, rfl, rfl⟩
  · intro px py hon hm
    exact (marked_setPixel fb x y c hon).mpr (Or.inl hm)

theorem drawnTo_fillRect (fb : Framebuffer) (x y w h : UInt16) (c : Rgb) :
    fb.DrawnTo (fb.fillRect x y w h c) := by
  apply drawnTo_of_forall
  · intro px py hon hnot
    rw [marked_fillRect fb x y w h c hon] at hnot
    rw [pixelAt_fillRect fb x y w h c hon, if_neg]
    intro hin
    exact hnot (Or.inr ⟨px, py, hon, hin, rfl, rfl⟩)
  · intro px py hon hm
    exact (marked_fillRect fb x y w h c hon).mpr (Or.inl hm)

theorem drawnTo_clear (fb : Framebuffer) (c : Rgb) :
    fb.DrawnTo (fb.clear c) := by
  apply drawnTo_of_forall
  · intro px py hon hnot
    exact absurd (marked_clear fb c hon) hnot
  · intro px py hon _
    exact marked_clear fb c hon

theorem drawnTo_raw (fb : Framebuffer) (r : RawDraw) :
    fb.DrawnTo (r.actions.foldl RawAction.apply fb) := by
  apply drawnTo_of_forall
  · intro px py hon hnot
    apply pixelAt_foldl r.actions fb hon
    intro i v hmem heq
    rcases r.covered i v hmem with ⟨x, y, w, h, htouch, hin⟩
    rw [← heq.left, ← heq.right] at hin
    exact hnot (marked_foldl_of_touch r.actions fb htouch hon hin)
  · intro px py hon hm
    exact marked_foldl_of_marked r.actions fb hon hm

theorem drawnTo_apply (fb : Framebuffer) (op : DrawOp) :
    fb.DrawnTo (op.apply fb) := by
  cases op with
  | setPixel x y c => exact drawnTo_setPixel fb x y c
  | fillRect x y w h c => exact drawnTo_fillRect fb x y w h c
  | clear c => exact drawnTo_clear fb c
  | raw r => exact drawnTo_raw fb r

theorem drawnTo_foldl (fb : Framebuffer) (ops : List DrawOp) :
    fb.DrawnTo (ops.foldl DrawOp.apply fb) := by
  induction ops generalizing fb with
  | nil => exact Marks.refl _ _
  | cons op rest ih =>
      exact Marks.trans (drawnTo_apply fb op) (ih (op.apply fb))

/-!
## Sending a frame
-/

/-- A screen whose differences from the framebuffer are all marked. -/
def CoversScreen (fb : Framebuffer) (screen : Raster UInt16) : Prop :=
  Covered (onPositions fb.pixelAt) (onPositions screen) fb.dirtyPositions

theorem coversScreen_iff (fb : Framebuffer) (screen : Raster UInt16) :
    fb.CoversScreen screen <-> forall x y, OnScreen x y ->
      fb.pixelAt x y ≠ screen x y -> fb.Marked x y := by
  constructor
  · intro h x y hon hne
    apply Classical.byContradiction
    intro hnot
    exact hne (h (x := (⟨x, hon.left⟩, ⟨y, hon.right⟩)) hnot)
  · intro h p hp
    apply Classical.byContradiction
    intro hne
    exact hp (h _ _ (onScreen_position p) hne)

def ShownOn (fb : Framebuffer) (screen : Raster UInt16) : Prop :=
  forall x y, OnScreen x y -> screen x y = fb.pixelAt x y

/-- Covering the pixels that a screen shows is covering the screen. -/
theorem coversScreen_trans {fb taken : Framebuffer} {screen : Raster UInt16}
    (h : fb.CoversScreen taken.pixelAt) (hshown : taken.ShownOn screen) :
    fb.CoversScreen screen := by
  intro p hp
  exact (h hp).trans (hshown _ _ (onScreen_position p)).symm

theorem coversScreen_of_shownOn {fb : Framebuffer} {screen : Raster UInt16}
    (h : fb.ShownOn screen) : fb.CoversScreen screen :=
  coversScreen_trans (Covered.refl _ _) h

/-- Showing a frame on a covered screen makes it equal to the framebuffer. -/
theorem shownOn_of_copied {fb : Framebuffer} {screen screen' : Raster UInt16}
    (h : fb.CoversScreen screen)
    (hcopied : forall x y, screen' x y =
      if fb.Marked x y then fb.pixelAt x y else screen x y) :
    fb.ShownOn screen' := by
  have heq : onPositions screen' = onPositions fb.pixelAt := by
    apply h.eq_of_copied
    · intro p hp
      exact (hcopied _ _).trans (if_pos hp)
    · intro p hp
      exact (hcopied _ _).trans (if_neg hp)
  intro x y hon
  exact congrFun heq (⟨x, hon.left⟩, ⟨y, hon.right⟩)

end Framebuffer

/-!
## Sessions

A session draws and encodes in any order.  It remembers the pixels of the last
encoded frame, and a screen shows every transfer, whichever display the
transfer is for.
-/

structure Session where
  fb : Framebuffer
  sent : Raster UInt16
  screen : Raster UInt16

inductive FrameOp where
  | draw (op : DrawOp)
  | encode (id : DisplayId)

def showOn (id : DisplayId) (screen : Raster UInt16) (bytes : List UInt8) :
    Option (Raster UInt16) :=
  (showTransfer (fun _ => screen) bytes).map fun screens => screens id

namespace Session

def start (screen : Raster UInt16) : Session :=
  { fb := Framebuffer.new
    sent := Framebuffer.new.pixelAt
    screen := screen }

def step : Transition Session FrameOp
  | s, .draw op => some { s with fb := op.apply s.fb }
  | s, .encode id =>
      (encodeFrame id s.fb).bind fun (bytes, fb) =>
        (showOn id s.screen bytes).map fun screen =>
          { fb := fb, sent := fb.pixelAt, screen := screen }

theorem showOn_frameBytes (id : DisplayId) (fb : Framebuffer)
    (screen : Raster UInt16) :
    exists screen', showOn id screen (frameBytes id fb) = some screen' ∧
      forall x y, screen' x y =
        if fb.Marked x y then fb.pixelAt x y else screen x y := by
  rcases showTransfer_frameBytes id fb (fun _ => screen) with
    ⟨screens', hshow, hpixels⟩
  refine ⟨screens' id, by rw [showOn, hshow]; rfl, ?_⟩
  intro x y
  rw [hpixels id x y]
  exact if_congr (and_iff_right rfl) rfl rfl

/-- Encoding records the framebuffer and shows its marked pixels. -/
theorem step_encode (s : Session) (id : DisplayId) :
    exists s', step s (.encode id) = some s' ∧
      s'.fb = { s.fb with dirty := s.fb.dirty.clear } ∧
      s'.sent = s.fb.pixelAt ∧
      forall x y, s'.screen x y =
        if s.fb.Marked x y then s.fb.pixelAt x y else s.screen x y := by
  rcases showOn_frameBytes id s.fb s.screen with ⟨screen', hshow, hpixels⟩
  refine ⟨⟨{ s.fb with dirty := s.fb.dirty.clear }, s.fb.pixelAt, screen'⟩, ?_,
    rfl, rfl, hpixels⟩
  simp only [step, encodeFrame_eq, Option.bind_some, hshow, Option.map_some]
  rfl

/--
What drawing and encoding keep: the framebuffer covers the last encoded frame,
and it covers the screen when it did so at the start.
-/
structure InSync (screenCovered : Prop) (s : Session) : Prop where
  sent : s.fb.CoversScreen s.sent
  screen : screenCovered -> s.fb.CoversScreen s.screen

theorem inSync_start (screen : Raster UInt16) :
    InSync (Framebuffer.new.ShownOn screen) (start screen) :=
  { sent := Covered.refl _ _
    screen := Framebuffer.coversScreen_of_shownOn }

theorem encode_shown {p : Prop} {s s' : Session} {id : DisplayId}
    (h : InSync p s) (hp : p) (hstep : step s (.encode id) = some s') :
    s'.fb.ShownOn s'.screen := by
  rcases step_encode s id with ⟨t, ht, hfb, _, hscreen⟩
  have heq : s' = t := Option.some.inj (hstep.symm.trans ht)
  have hshown := Framebuffer.shownOn_of_copied (h.screen hp) hscreen
  rw [heq, hfb]
  exact hshown

theorem step_inSync {p : Prop} (s : Session) (op : FrameOp)
    (h : InSync p s) : exists s', step s op = some s' ∧ InSync p s' := by
  cases op with
  | draw op =>
      have hdrawn := Framebuffer.drawnTo_apply s.fb op
      exact ⟨_, rfl, h.sent.marks hdrawn, fun hp => (h.screen hp).marks hdrawn⟩
  | encode id =>
      rcases step_encode s id with ⟨s', hstep, hfb, hsent, _⟩
      refine ⟨s', hstep, ?_, ?_⟩
      · rw [hsent, hfb]
        exact Covered.refl _ _
      · intro hp
        exact Framebuffer.coversScreen_of_shownOn (encode_shown h hp hstep)

/--
Over every interleaving of drawing and encoding, the pixels that differ from
the last encoded frame lie in dirty tiles; and a screen that starts as the new
framebuffer and shows every transfer equals the framebuffer after each encode.
-/
theorem changed_pixels_are_dirty (screen : Raster UInt16)
    (ops : List FrameOp) :
    exists s, Transition.run step (start screen) ops = some s ∧
      (forall x y, OnScreen x y -> s.fb.pixelAt x y ≠ s.sent x y ->
        s.fb.dirty.isTileDirty (x / tile) (y / tile) = true) ∧
      ((forall x y, OnScreen x y ->
          screen x y = Framebuffer.new.pixelAt x y) ->
        forall id, exists s',
          Transition.run step (start screen) (ops ++ [.encode id]) = some s' ∧
          forall x y, OnScreen x y -> s'.screen x y = s'.fb.pixelAt x y) := by
  rcases Transition.run_total step (inSync_start screen) step_inSync ops with
    ⟨s, hrun, hsync⟩
  refine ⟨s, hrun, ?_, ?_⟩
  · exact (Framebuffer.coversScreen_iff s.fb s.sent).mp hsync.sent
  · intro hstart id
    rcases step_encode s id with ⟨s', hstep, _⟩
    refine ⟨s', ?_, encode_shown hsync hstart hstep⟩
    rw [Transition.run_snoc, hrun]
    exact hstep

end Session

end Display
end OpenMk3
