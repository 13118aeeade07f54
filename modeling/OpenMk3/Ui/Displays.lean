import OpenMk3.Library.Transition
import OpenMk3.Ui.Canvas

/-!
# Displays and the browse state

The daemon's writers of the browse state, interleaved at the sections they hold
the browse mutex for.  A navigation event updates the state in one section and
repaints in a later one, so a picture may be old only while a repaint is due.
-/

namespace OpenMk3
namespace Ui

open Device Display Library Proto

/-- The browse state, the framebuffer of each display, and the invocations of
`handle_nav_event` whose second section is still to come. -/
structure Browser where
  browse : BrowseState
  display : DisplayId -> Framebuffer
  repaintDue : Nat -> Bool

inductive BrowserAct where
  | navUpdate (call : Nat) (ev : Event)
  | navRepaint (call : Nat)
  -- The rows of a query, or nothing when the query failed.
  | udsBrowse (rows : Option (List PresetRow))
  | scanRefresh (rows : Option (List PresetRow))
  -- The display task encodes the dirty tiles of a framebuffer.
  | encode (which : DisplayId)

namespace Browser

def repaint (s : Browser) : Browser :=
  { s with display := fun which => s.browse.render which (s.display which) }

/-- The daemon after the first repaint of `main`, over any framebuffers. -/
def boot (initial : BrowseState) (display : DisplayId -> Framebuffer) : Browser :=
  repaint { browse := initial, display := display, repaintDue := fun _ => false }

/-- `set_rows` and a repaint under one lock. -/
def showRows (s : Browser) : Option (List PresetRow) -> Browser
  | some rows => { s with browse := s.browse.setRows rows }.repaint
  | none => s

def step : Transition Browser BrowserAct
  | s, .navUpdate call ev =>
      if s.repaintDue call then none
      else
        let (browse, changed) := s.browse.navigate ev
        some { s with
          browse := browse
          repaintDue := Function.update s.repaintDue call changed }
  | s, .navRepaint call =>
      if s.repaintDue call then
        some { s.repaint with
          repaintDue := Function.update s.repaintDue call false }
      else none
  | s, .udsBrowse rows => some (s.showRows rows)
  | s, .scanRefresh rows => some (s.showRows rows)
  | s, .encode which =>
      (encodeFrame which (s.display which)).map fun out =>
        { s with display := Function.update s.display which out.2 }

/-- Both displays show the current state. -/
def Current (s : Browser) : Prop :=
  forall which,
    (s.display which).pixels = (s.browse.render which Framebuffer.new).pixels

/-- A picture may be old only while some repaint is due. -/
def Follows (s : Browser) : Prop :=
  (forall call, s.repaintDue call = false) -> s.Current

theorem current_repaint (s : Browser) : s.repaint.Current :=
  fun which => s.browse.render_pixels which _ _

theorem follows_showRows {s : Browser} (h : s.Follows)
    (rows : Option (List PresetRow)) : (s.showRows rows).Follows := by
  cases rows with
  | none =>
      exact h
  | some rows =>
      intro _
      exact current_repaint _

/-- An event that changed nothing leaves no repaint due. -/
theorem navigate_unchanged {b : BrowseState} {ev : Event}
    (h : (b.navigate ev).2 = false) : (b.navigate ev).1 = b := by
  cases ev with
  | macroEncoder index delta absolute =>
      simp only [BrowseState.navigate] at h ⊢
      split_ifs at h ⊢
      · rfl
      · rfl
  | _ =>
      rfl

theorem step_follows {s s' : Browser} {a : BrowserAct} (h : s.Follows)
    (hstep : step s a = some s') : s'.Follows := by
  cases a with
  | navUpdate call ev =>
      simp only [step] at hstep
      split at hstep
      · cases hstep
      · next hidle =>
          cases hstep
          intro hquiet
          have hchanged : (s.browse.navigate ev).2 = false := by
            simpa using hquiet call
          have hprior : forall other, s.repaintDue other = false := by
            intro other
            by_cases heq : other = call
            · rw [heq]
              exact Bool.eq_false_iff.mpr hidle
            · simpa [Function.update_of_ne heq] using hquiet other
          have hsame := navigate_unchanged hchanged
          intro which
          show (s.display which).pixels =
            ((s.browse.navigate ev).1.render which Framebuffer.new).pixels
          rw [hsame]
          exact h hprior which
  | navRepaint call =>
      simp only [step] at hstep
      split at hstep
      · cases hstep
        intro _
        exact current_repaint s
      · cases hstep
  | udsBrowse rows =>
      cases hstep
      exact follows_showRows h rows
  | scanRefresh rows =>
      cases hstep
      exact follows_showRows h rows
  | encode which =>
      rcases Option.map_eq_some_iff.mp hstep with ⟨⟨bytes, fb⟩, henc, rfl⟩
      intro hquiet other
      have hpixels := (encodeFrame_clears henc).left
      by_cases heq : other = which
      · subst heq
        simpa [hpixels] using h hquiet other
      · simpa [Function.update_of_ne heq] using h hquiet other

/-- Whatever the framebuffers held and however the writers interleave, once no
repaint is due both displays show the current state as drawn on black. -/
theorem displays_follow_browse (initial : BrowseState)
    (display : DisplayId -> Framebuffer) {actions : List BrowserAct}
    {s : Browser}
    (hrun : Transition.run step (boot initial display) actions = some s)
    (hquiet : forall call, s.repaintDue call = false) (which : DisplayId) :
    (s.display which).pixels =
      (s.browse.render which Framebuffer.new).pixels := by
  have hstart : (boot initial display).Follows := fun _ => current_repaint _
  have h : s.Follows :=
    Transition.run_invariant_of_steps step (fun _ _ => True) hstart
      (fun _ _ _ hinv _ hs => step_follows hinv hs) (fun _ _ _ _ _ => trivial)
      hrun
  exact h hquiet which

private def lateRepaint : List BrowserAct :=
  [.navUpdate 0 (.macroEncoder 2 1 0), .udsBrowse (some []), .navRepaint 0]

/-- A scroll whose repaint comes after an emptied row list. -/
theorem displays_follow_lateRepaint :
    exists s : Browser,
      Transition.run step (boot {} fun _ => Framebuffer.new) lateRepaint =
        some s ∧
      (s.display .right).pixels =
        (s.browse.render .right Framebuffer.new).pixels := by
  refine ⟨_, rfl, ?_⟩
  refine @displays_follow_browse {} (fun _ => Framebuffer.new) lateRepaint _ rfl
    ?_ .right
  intro call
  by_cases heq : call = 0
  · rw [heq]
    rfl
  · simp [boot, repaint, showRows, Function.update_of_ne heq]

end Browser

end Ui
end OpenMk3
