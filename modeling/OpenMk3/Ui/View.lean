import OpenMk3.Ui.Browse

/-!
# Rendering the browse state

What `BrowseState::render` draws on the two displays.  Each picture begins by
filling the whole sink, so it is drawn from the fill on in the same way over any
earlier picture.
-/

namespace OpenMk3
namespace Ui

open PixelSink Proto

namespace Layout

def statusHeight : UInt16 := 24

def breadcrumbHeight : UInt16 := 32

def rowHeight : UInt16 := 28

end Layout

namespace BrowseState

variable {σ : Type} [PixelSink σ]

/-- Breadcrumb string rendered on the left display header. -/
def breadcrumb (b : BrowseState) : String :=
  String.intercalate " / "
    ("All" :: [b.vendorFilter, b.typeFilter, b.subtypeFilter,
      b.modeFilter].filterMap id)

def background : Rgb := { r := 0x05, g := 0x08, b := 0x12 }

/-- The background over the whole sink, the first thing either picture draws. -/
def erase (sink : σ) : σ :=
  fillRect sink 0 0 (width sink) (height sink) background

def drawStatus (sink : σ) (text : Option String) : σ :=
  let sy := height sink - Layout.statusHeight
  let sink := fillRect sink 0 sy (width sink) Layout.statusHeight
    { r := 0x10, g := 0x14, b := 0x22 }
  match text with
  | some text =>
      (drawText sink 8 (sy + 8) text.toList
        { r := 0x90, g := 0xa0, b := 0xc0 }).1
  | none => sink

/-- The bar behind the line under a cursor. -/
def drawCursorBar (sink : σ) (y : UInt16) (bar accent : Rgb) : σ :=
  let sink := fillRect sink 0 (y - 2) (width sink) Layout.rowHeight bar
  fillRect sink 0 (y - 2) 4 Layout.rowHeight accent

/-- The facet list from position `i` on, down to the status strip. -/
def drawFacets (b : BrowseState) (i : Nat) : List String -> σ -> σ
  | [], sink => sink
  | val :: rest, sink =>
      let fg : Rgb := { r := 0xe0, g := 0xe0, b := 0xe0 }
      let accent : Rgb := { r := 0xff, g := 0x80, b := 0x20 }
      let y := Layout.breadcrumbHeight + 8 + i.toUInt16 * Layout.rowHeight
      if y + Layout.rowHeight > height sink - Layout.statusHeight then sink
      else
        let sink :=
          if i = b.facetCursor then
            drawCursorBar sink y { r := 0x1c, g := 0x22, b := 0x30 } accent
          else sink
        let color := if i = b.facetCursor then accent else fg
        drawFacets b (i + 1) rest
          (drawText sink 12 (y + 4) val.toList color).1

def renderLeft (b : BrowseState) (sink : σ) : σ :=
  let fg : Rgb := { r := 0xe0, g := 0xe0, b := 0xe0 }
  let sink := erase sink
  let sink := fillRect sink 0 0 (width sink) Layout.breadcrumbHeight
    { r := 0x10, g := 0x14, b := 0x22 }
  let sink := (drawText sink 8 8 b.breadcrumb.toList fg).1
  let sink := drawFacets b 0 b.facetValues sink
  drawStatus sink (some (toString b.rows.length ++ " presets"))

/-- One visible preset, `offset` lines below the first. -/
def drawRow (sink : σ) (offset : Nat) (row : PresetRow) (isCursor : Bool) : σ :=
  let fg : Rgb := { r := 0xe0, g := 0xe0, b := 0xe0 }
  let dim : Rgb := { r := 0x70, g := 0x80, b := 0x90 }
  let accent : Rgb := { r := 0x20, g := 0xc0, b := 0xff }
  let y := 8 + offset.toUInt16 * Layout.rowHeight
  let sink :=
    if isCursor then
      drawCursorBar sink y { r := 0x16, g := 0x26, b := 0x34 } accent
    else sink
  let sink := (drawText sink 12 (y + 2) row.name.toList
    (if isCursor then accent else fg)).1
  (drawText sink 12 (y + 14) row.bankChain.toList dim).1

def renderRight (b : BrowseState) (sink : σ) : σ :=
  let sink := erase sink
  let visible :=
    ((height sink - Layout.statusHeight) / Layout.rowHeight).toNat - 1
  let start := b.cursor - visible / 2
  let sink := ((b.rows.drop start).take visible).zipIdx.foldl
    (fun sink p => drawRow sink p.2 p.1 (start + p.2 == b.cursor)) sink
  drawStatus sink (b.selected.map fun sel =>
    if sel.vendor.isEmpty then sel.pluginRef else sel.vendor)

/-- Render the browse UI across both displays. -/
def render (b : BrowseState) (which : DisplayId) (sink : σ) : σ :=
  match which with
  | .left => b.renderLeft sink
  | .right => b.renderRight sink

/-!
## Drawing over the erased sink
-/

section Lockstep

variable {R : σ -> σ -> Prop} {s s' : σ}

theorem drawStatus_lockstep (hR : Lockstep R) (h : R s s')
    (text : Option String) : R (drawStatus s text) (drawStatus s' text) := by
  unfold drawStatus
  rw [hR.width h, hR.height h]
  cases text with
  | none =>
      exact hR.fillRect h _ _ _ _ _
  | some text =>
      exact hR.drawText (hR.fillRect h _ _ _ _ _) _ _ _ _

theorem drawCursorBar_lockstep (hR : Lockstep R) (h : R s s') (y : UInt16)
    (bar accent : Rgb) :
    R (drawCursorBar s y bar accent) (drawCursorBar s' y bar accent) := by
  unfold drawCursorBar
  rw [hR.width h]
  exact hR.fillRect (hR.fillRect h _ _ _ _ _) _ _ _ _ _

theorem drawFacets_lockstep (hR : Lockstep R) (b : BrowseState) (i : Nat)
    (values : List String) (h : R s s') :
    R (b.drawFacets i values s) (b.drawFacets i values s') := by
  induction values generalizing i s s' with
  | nil =>
      exact h
  | cons val rest ih =>
      rw [drawFacets, drawFacets, hR.height h]
      split
      · exact h
      · apply ih
        apply hR.drawText
        split
        · exact drawCursorBar_lockstep hR h _ _ _
        · exact h

theorem drawRow_lockstep (hR : Lockstep R) (h : R s s') (offset : Nat)
    (row : PresetRow) (isCursor : Bool) :
    R (drawRow s offset row isCursor) (drawRow s' offset row isCursor) := by
  unfold drawRow
  apply hR.drawText
  apply hR.drawText
  split
  · exact drawCursorBar_lockstep hR h _ _ _
  · exact h

/-- Two sinks that agree once erased show the same picture. -/
theorem render_lockstep (hR : Lockstep R) (h : R (erase s) (erase s'))
    (b : BrowseState) (which : DisplayId) :
    R (b.render which s) (b.render which s') := by
  cases which with
  | left =>
      rw [render, render, renderLeft, renderLeft]
      rw [hR.width h]
      apply drawStatus_lockstep hR
      apply drawFacets_lockstep hR
      apply hR.drawText
      exact hR.fillRect h _ _ _ _ _
  | right =>
      rw [render, render, renderRight, renderRight]
      rw [hR.height h]
      apply drawStatus_lockstep hR
      exact List.foldl_rel h fun p _ _ _ ht =>
        drawRow_lockstep hR ht p.2 p.1 _

end Lockstep

end BrowseState

end Ui
end OpenMk3
