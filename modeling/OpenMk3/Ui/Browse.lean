import Mathlib.Data.Int.Basic
import OpenMk3.Device.Event
import OpenMk3.Nks.Types
import OpenMk3.Ui.Render

/-!
# Browse state

The browse UI of the daemon: the rows of the last query with their cursor, the
facet list with its own, and how a navigation event moves either of them.
-/

namespace OpenMk3
namespace Ui

open Device Nks Proto

/-- A row of a query result. -/
structure PresetRow where
  id : Int
  path : Path
  name : String
  vendor : String
  pluginRef : String
  bankChain : String
deriving DecidableEq, Repr

structure BrowseState where
  typeFilter : Option String := none
  subtypeFilter : Option String := none
  modeFilter : Option String := none
  vendorFilter : Option String := none
  cursor : Nat := 0
  rows : List PresetRow := []
  facetValues : List String := []
  facetCursor : Nat := 0

namespace BrowseState

def selected (b : BrowseState) : Option PresetRow :=
  b.rows[b.cursor]?

def cursorUp (b : BrowseState) : BrowseState :=
  if b.cursor > 0 then { b with cursor := b.cursor - 1 } else b

def cursorDown (b : BrowseState) : BrowseState :=
  if b.cursor + 1 < b.rows.length then { b with cursor := b.cursor + 1 } else b

def setRows (b : BrowseState) (rows : List PresetRow) : BrowseState :=
  { b with rows := rows, cursor := 0 }

/-- The first section of `handle_nav_event`, and whether a repaint is due. -/
def navigate (b : BrowseState) : Event -> BrowseState × Bool
  | .macroEncoder index delta _ =>
      if index.val = 2 then
        (Nat.repeat (if delta > 0 then cursorDown else cursorUp) delta.natAbs b,
          true)
      else if index.val = 0 then
        let n := b.facetValues.length
        if n > 0 then
          let new := ((b.facetCursor : Int) + delta.sign) % n
          ({ b with facetCursor := new.toNat }, true)
        else (b, false)
      else (b, false)
  | _ => (b, false)

/-!
## The cursors under navigation
-/

/-- The cursor moved by `d` and held inside the rows. -/
def clampedCursor (b : BrowseState) (d : Int) : Int :=
  max 0 (min (b.cursor + d) (b.rows.length - 1 : Nat))

/-- Each cursor stands on a row of its list, or at zero when the list is
empty. -/
structure InView (b : BrowseState) : Prop where
  cursor : b.cursor < b.rows.length ∨ b.cursor = 0 ∧ b.rows = []
  facetCursor : b.facetValues ≠ [] -> b.facetCursor < b.facetValues.length

theorem repeat_cursorDown (b : BrowseState) (n : Nat)
    (h : b.cursor ≤ b.rows.length - 1) :
    Nat.repeat cursorDown n b =
      { b with cursor := min (b.cursor + n) (b.rows.length - 1) } := by
  induction n with
  | zero =>
      rw [Nat.repeat, Nat.add_zero, Nat.min_eq_left h]
  | succ n ih =>
      rw [Nat.repeat, ih, cursorDown]
      split
      · next hlt =>
          congr 1
          simp only at hlt ⊢
          omega
      · next hge =>
          congr 1
          simp only at hge
          omega

theorem repeat_cursorUp (b : BrowseState) (n : Nat) :
    Nat.repeat cursorUp n b = { b with cursor := b.cursor - n } := by
  induction n with
  | zero =>
      rfl
  | succ n ih =>
      rw [Nat.repeat, ih, cursorUp]
      split
      · congr 1
      · next hzero =>
          congr 1
          simp only at hzero
          omega

namespace InView

variable {b : BrowseState}

theorem cursor_le (h : b.InView) : b.cursor ≤ b.rows.length - 1 := by
  rcases h.cursor with hlt | ⟨hzero, _⟩
  · omega
  · omega

/-- Moving the cursor step by step is moving it at once and clamping. -/
theorem navigate_rows (h : b.InView) {index : Fin macroEncoderCount}
    (hindex : index.val = 2) (delta : Int) (absolute : UInt16) :
    b.navigate (.macroEncoder index delta absolute) =
      ({ b with cursor := (b.clampedCursor delta).toNat }, true) := by
  have hle := h.cursor_le
  rw [navigate, if_pos hindex]
  by_cases hpos : delta > 0
  · rw [if_pos hpos, repeat_cursorDown b _ hle]
    congr 2
    simp only [clampedCursor]
    omega
  · rw [if_neg hpos, repeat_cursorUp]
    congr 2
    simp only [clampedCursor]
    omega

theorem navigate_facets (hne : b.facetValues ≠ [])
    {index : Fin macroEncoderCount} (hindex : index.val = 0) (delta : Int)
    (absolute : UInt16) :
    b.navigate (.macroEncoder index delta absolute) =
      ({ b with
        facetCursor :=
          (((b.facetCursor : Int) + delta.sign) % b.facetValues.length).toNat },
        true) := by
  have hlen : b.facetValues.length > 0 := List.length_pos_iff.mpr hne
  rw [navigate, if_neg (by omega), if_pos hindex]
  simp only [if_pos hlen]

theorem setRows (h : b.InView) (rows : List PresetRow) :
    (b.setRows rows).InView := by
  refine ⟨?_, h.facetCursor⟩
  cases rows with
  | nil =>
      exact Or.inr ⟨rfl, rfl⟩
  | cons row rest =>
      exact Or.inl (Nat.succ_pos rest.length)

theorem navigate (h : b.InView) (ev : Event) : (b.navigate ev).1.InView := by
  cases ev with
  | macroEncoder index delta absolute =>
      by_cases hrows : index.val = 2
      · rw [h.navigate_rows hrows]
        refine ⟨?_, h.facetCursor⟩
        have hcursor := h.cursor
        simp only [clampedCursor, ← List.length_eq_zero_iff] at hcursor ⊢
        omega
      · by_cases hfacets : index.val = 0 ∧ b.facetValues ≠ []
        · rw [navigate_facets hfacets.right hfacets.left]
          refine ⟨h.cursor, ?_⟩
          intro hne
          have hlen := List.length_pos_iff.mpr hne
          have hlt := Int.emod_lt_of_pos ((b.facetCursor : Int) + delta.sign)
            (Int.natCast_pos.mpr hlen)
          simp only at hlen hlt ⊢
          omega
        · have hsame : b.navigate (.macroEncoder index delta absolute) =
              (b, false) := by
            rw [BrowseState.navigate, if_neg hrows]
            split
            · next hindex =>
                have hnil : b.facetValues = [] := by
                  by_contra hne
                  exact hfacets ⟨hindex, hne⟩
                simp [hnil]
            · rfl
          rw [hsame]
          exact h
  | _ =>
      exact h

theorem selected_isSome_iff (h : b.InView) :
    b.selected.isSome = true <-> b.rows ≠ [] := by
  rw [selected, isSome_getElem?]
  constructor
  · intro hlt hnil
    rw [hnil] at hlt
    cases hlt
  · intro hne
    rcases h.cursor with hlt | ⟨_, hnil⟩
    · exact hlt
    · exact absurd hnil hne

end InView

/-!
## Runs
-/

/-- What moves the cursors: a new row list, or an event of the device. -/
inductive NavOp where
  | setRows (rows : List PresetRow)
  | event (ev : Event)

def perform (b : BrowseState) : NavOp -> BrowseState
  | .setRows rows => b.setRows rows
  | .event ev => (b.navigate ev).1

theorem InView.perform {b : BrowseState} (h : b.InView) (op : NavOp) :
    (b.perform op).InView := by
  cases op with
  | setRows rows =>
      exact h.setRows rows
  | event ev =>
      exact h.navigate ev

theorem InView.run {b : BrowseState} (h : b.InView) (ops : List NavOp) :
    (ops.foldl BrowseState.perform b).InView := by
  induction ops generalizing b with
  | nil =>
      exact h
  | cons op rest ih =>
      exact ih (h.perform op)

theorem inView_of_zero {b : BrowseState} (hcursor : b.cursor = 0)
    (hfacet : b.facetCursor = 0) : b.InView := by
  constructor
  · cases hrows : b.rows with
    | nil =>
        exact Or.inr ⟨hcursor, rfl⟩
    | cons row rest =>
        rw [hcursor]
        exact Or.inl (Nat.succ_pos rest.length)
  · intro hne
    rw [hfacet]
    exact List.length_pos_iff.mpr hne

/-- After every run from cursors at zero both cursors are in view, and the two
encoders move them by clamping and by wrapping around. -/
theorem navigation_run {b0 : BrowseState} (hcursor : b0.cursor = 0)
    (hfacet : b0.facetCursor = 0) (ops : List NavOp) :
    let b := ops.foldl perform b0
    (b.cursor < b.rows.length ∨ b.cursor = 0 ∧ b.rows.length = 0) ∧
    (b.selected.isSome = true <-> b.rows ≠ []) ∧
    (b.facetValues ≠ [] -> b.facetCursor < b.facetValues.length) ∧
    (forall (delta : Int) (absolute : UInt16),
      ((b.perform (.event (.macroEncoder 2 delta absolute))).cursor : Int) =
        max 0 (min (b.cursor + delta) (b.rows.length - 1 : Nat))) ∧
    (b.facetValues ≠ [] -> forall (delta : Int) (absolute : UInt16),
      ((b.perform (.event (.macroEncoder 0 delta absolute))).facetCursor :
          Int) =
        (b.facetCursor + delta.sign) % b.facetValues.length) := by
  intro b
  have h : b.InView := (inView_of_zero hcursor hfacet).run ops
  refine ⟨?_, h.selected_isSome_iff, h.facetCursor, ?_, ?_⟩
  · rw [List.length_eq_zero_iff]
    exact h.cursor
  · intro delta absolute
    rw [BrowseState.perform, h.navigate_rows rfl]
    exact Int.toNat_of_nonneg (Int.le_max_left 0 _)
  · intro hne delta absolute
    have hlen := List.length_pos_iff.mpr hne
    rw [BrowseState.perform, InView.navigate_facets hne rfl]
    exact Int.toNat_of_nonneg (Int.emod_nonneg _ (by omega))

private def twoRows : List PresetRow :=
  [{ id := 1, path := [], name := "a", vendor := "", pluginRef := "",
     bankChain := "" },
    { id := 2, path := [], name := "b", vendor := "", pluginRef := "",
      bankChain := "" }]

/-- Five detents down, a shorter list, and one step back on the facets. -/
theorem navigation_run_twoRows :
    let ops : List NavOp :=
      [.setRows twoRows, .event (.macroEncoder 2 5 0), .setRows [],
        .event (.macroEncoder 0 (-1) 0)]
    let b := ops.foldl perform { facetValues := ["Synth", "Bass"] }
    b.cursor = 0 ∧ b.selected.isSome = false ∧ b.facetCursor = 1 ∧
      b.facetCursor < b.facetValues.length := by
  intro ops b
  have h := @navigation_run { facetValues := ["Synth", "Bass"] } rfl rfl ops
  exact ⟨by decide, by decide, by decide, h.right.right.left (by decide)⟩

end BrowseState

end Ui
end OpenMk3
