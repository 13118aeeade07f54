import OpenMk3.Ui.Plot

/-!
# The two lists

Which facets and which presets are drawn, and where: the window around the
selected preset always shows it, the facet list stops at the status strip
wherever its cursor is.
-/

namespace OpenMk3
namespace Ui

open Device Library PixelSink Proto

/-- One line of a list as it is drawn. -/
structure ListLine (α : Type) where
  item : α
  isCursor : Bool
  pixels : List Pixel

namespace BrowseState

/-- The bar behind a line at `y`. -/
def barPixels (width y : UInt16) (bar accent : Rgb) : List Pixel :=
  fillPixels 0 (y - 2) width Layout.rowHeight bar ++
    fillPixels 0 (y - 2) 4 Layout.rowHeight accent

theorem drawCursorBar_eq_plot {σ : Type} [PixelSink σ] (sink : σ) (y : UInt16)
    (bar accent : Rgb) :
    drawCursorBar sink y bar accent = plot sink (barPixels (width sink) y bar accent) := by
  rw [drawCursorBar, barPixels, plot_append, fillRect_eq_plot, fillRect_eq_plot]

theorem y_of_mem_barPixels {width y : UInt16} {bar accent : Rgb} {p : Pixel}
    (hy : 2 ≤ y.toNat) (hp : p ∈ barPixels width y bar accent) :
    p.y.toNat < y.toNat + 26 := by
  have hrow : Layout.rowHeight.toNat = 28 := rfl
  have htop : (y - 2).toNat = y.toNat - 2 :=
    UInt16.toNat_sub_of_le y 2 (UInt16.le_iff_toNat_le.mpr hy)
  rcases List.mem_append.mp hp with hfill | hfill
  · have hlines := y_of_mem_fillPixels hfill
    omega
  · have hlines := y_of_mem_fillPixels hfill
    omega

theorem toNat_add_of_lt {y d : UInt16} {n : Nat} (hd : d.toNat = n)
    (h : y.toNat + n < 2 ^ 16) : (y + d).toNat = y.toNat + n := by
  rw [UInt16.toNat_add, hd, Nat.mod_eq_of_lt h]

/-- The `i`-th line below `top` when nothing wraps. -/
theorem lineY_toNat {top : UInt16} {i : Nat} (h : top.toNat + 28 * i < 2 ^ 16) :
    (top + i.toUInt16 * Layout.rowHeight).toNat = top.toNat + 28 * i := by
  have hrow : Layout.rowHeight.toNat = 28 := rfl
  rw [UInt16.toNat_add, UInt16.toNat_mul, toUInt16_toNat (by omega), hrow,
    Nat.mod_eq_of_lt (by omega : i * 28 < 2 ^ 16), Nat.mod_eq_of_lt (by omega),
    Nat.mul_comm]

/-!
## Presets
-/

/-- How many presets fit above the status strip. -/
def visible (height : UInt16) : Nat :=
  ((height - Layout.statusHeight) / Layout.rowHeight).toNat - 1

/-- The first preset that is drawn. -/
def start (b : BrowseState) (height : UInt16) : Nat := b.cursor - visible height / 2

def rowLine (width : UInt16) (offset : Nat) (row : PresetRow) (isCursor : Bool) :
    ListLine PresetRow :=
  let fg : Rgb := { r := 0xe0, g := 0xe0, b := 0xe0 }
  let dim : Rgb := { r := 0x70, g := 0x80, b := 0x90 }
  let accent : Rgb := { r := 0x20, g := 0xc0, b := 0xff }
  let y := 8 + offset.toUInt16 * Layout.rowHeight
  { item := row
    isCursor := isCursor
    pixels :=
      (if isCursor then barPixels width y { r := 0x16, g := 0x26, b := 0x34 } accent
        else []) ++
      (textPixels width 12 (y + 2) row.name.toList (if isCursor then accent else fg) ++
        textPixels width 12 (y + 14) row.bankChain.toList dim) }

def rowLines (b : BrowseState) (width height : UInt16) : List (ListLine PresetRow) :=
  ((b.rows.drop (b.start height)).take (visible height)).zipIdx.map fun p =>
    rowLine width p.2 p.1 (b.start height + p.2 == b.cursor)

/-- The caption of the status strip. -/
def caption (b : BrowseState) : Option String :=
  b.selected.map fun sel => if sel.vendor.isEmpty then sel.pluginRef else sel.vendor

section FixedSize

variable {σ : Type} [PixelSink σ] [FixedSize σ]

theorem drawRow_eq_plot (sink : σ) (offset : Nat) (row : PresetRow) (isCursor : Bool) :
    drawRow sink offset row isCursor =
      plot sink (rowLine (width sink) offset row isCursor).pixels := by
  unfold drawRow rowLine
  cases isCursor with
  | true =>
      simp only [if_true, drawText_eq_plot, drawCursorBar_eq_plot, plot_append, width_plot]
  | false =>
      simp only [Bool.false_eq_true, if_false, drawText_eq_plot, plot_append, width_plot,
        List.nil_append]

/-- The right display shows the lines of the window and the caption. -/
theorem renderRight_eq (b : BrowseState) (sink : σ) :
    b.renderRight sink =
      drawStatus
        (plot (erase sink)
          ((b.rowLines (width sink) (height sink)).flatMap ListLine.pixels))
        b.caption := by
  have hsize : width (erase sink) = width sink ∧ height (erase sink) = height sink := by
    rw [erase, fillRect_eq_plot, width_plot, height_plot]
    exact ⟨rfl, rfl⟩
  have hlines : forall (ps : List (PresetRow × Nat)) (s : σ), width s = width sink ->
      ps.foldl (fun s p => drawRow s p.2 p.1 (b.start (height sink) + p.2 == b.cursor)) s =
        plot s ((ps.map fun p => rowLine (width sink) p.2 p.1
          (b.start (height sink) + p.2 == b.cursor)).flatMap ListLine.pixels) := by
    intro ps
    induction ps with
    | nil =>
        intro s _
        rfl
    | cons p ps ih =>
        intro s hs
        rw [List.foldl_cons, List.map_cons, List.flatMap_cons, plot_append,
          drawRow_eq_plot, hs]
        exact ih _ (by rw [width_plot, hs])
  unfold renderRight
  simp only [hsize.right]
  congr 1
  exact hlines _ _ hsize.left

end FixedSize

/-!
## The window
-/

variable {b : BrowseState}

theorem visible_toNat {height : UInt16} (h : 80 ≤ height.toNat) :
    visible height = (height.toNat - 24) / 28 - 1 := by
  have hstrip : Layout.statusHeight.toNat = 24 := rfl
  have hrow : Layout.rowHeight.toNat = 28 := rfl
  rw [visible, UInt16.toNat_div, UInt16.toNat_sub_of_le _ _
    (UInt16.le_iff_toNat_le.mpr (by omega)), hstrip, hrow]

theorem visible_bounds {height : UInt16} (h : 80 ≤ height.toNat) :
    1 ≤ visible height ∧ 28 * visible height + 52 ≤ height.toNat := by
  rw [visible_toNat h]
  omega

/-- The window contains the cursor. -/
theorem cursor_mem_window (b : BrowseState) {height : UInt16} (h : 80 ≤ height.toNat) :
    b.start height ≤ b.cursor ∧ b.cursor < b.start height + visible height := by
  have hvisible := (visible_bounds h).left
  unfold start
  omega

theorem filter_zipIdx {α : Type} {xs : List α} (n : Nat) {k : Nat} (h : k < xs.length) :
    (xs.zipIdx n).filter (fun p => p.2 == n + k) = [(xs[k], n + k)] := by
  induction xs generalizing n k with
  | nil =>
      exact absurd h (Nat.not_lt_zero k)
  | cons x xs ih =>
      rw [List.zipIdx_cons]
      cases k with
      | zero =>
          rw [List.filter_cons_of_pos (by simp), List.filter_eq_nil_iff.mpr]
          · rfl
          · intro p hp
            have hle := List.le_snd_of_mem_zipIdx hp
            rw [beq_iff_eq]
            omega
      | succ k =>
          have hidx : n + (k + 1) = n + 1 + k := by
            omega
          rw [List.filter_cons_of_neg (by simp), hidx,
            ih (n + 1) (Nat.lt_of_succ_lt_succ h)]
          rfl

/-- The line of the cursor is the only one that is highlighted. -/
theorem filter_isCursor_rowLines {height : UInt16} (h : 80 ≤ height.toNat)
    (hcursor : b.cursor < b.rows.length) (width : UInt16) :
    exists line, (b.rowLines width height).filter ListLine.isCursor = [line] ∧
      some line.item = b.rows[b.cursor]? := by
  rcases cursor_mem_window b h with ⟨hstart, hend⟩
  have hk : b.cursor - b.start height <
      ((b.rows.drop (b.start height)).take (visible height)).length := by
    rw [List.length_take, List.length_drop]
    omega
  have hflag : (ListLine.isCursor ∘ fun p : PresetRow × Nat =>
      rowLine width p.2 p.1 (b.start height + p.2 == b.cursor)) =
        fun p => p.2 == 0 + (b.cursor - b.start height) := by
    funext p
    rw [Bool.eq_iff_iff, beq_iff_eq]
    show (b.start height + p.2 == b.cursor) = true <-> _
    rw [beq_iff_eq]
    omega
  rw [rowLines, List.filter_map, hflag, filter_zipIdx 0 hk]
  refine ⟨_, rfl, ?_⟩
  show some (((b.rows.drop (b.start height)).take (visible height))[_]) = _
  rw [List.getElem_take, List.getElem_drop, List.getElem?_eq_getElem hcursor]
  congr 2
  omega

/-- The lines of a preset are above the status strip. -/
theorem y_of_mem_rowLine {height width : UInt16} (h : 80 ≤ height.toNat) {offset : Nat}
    (hoffset : offset < visible height) {row : PresetRow} {isCursor : Bool} {p : Pixel}
    (hp : p ∈ (rowLine width offset row isCursor).pixels) :
    p.y.toNat < height.toNat - 24 := by
  have hbounds := (visible_bounds h).right
  have hword := height.toNat_lt
  have hy : ((8 : UInt16) + offset.toUInt16 * Layout.rowHeight).toNat = 8 + 28 * offset :=
    lineY_toNat (by
      show 8 + 28 * offset < 2 ^ 16
      omega)
  unfold rowLine at hp
  simp only at hp
  generalize (8 : UInt16) + offset.toUInt16 * Layout.rowHeight = y at hy hp
  have hname : (y + 2).toNat = y.toNat + 2 := toNat_add_of_lt rfl (by omega)
  have hchain : (y + 14).toNat = y.toNat + 14 := toNat_add_of_lt rfl (by omega)
  rcases List.mem_append.mp hp with hbar | htext
  · split_ifs at hbar with hflag
    · have hlt := y_of_mem_barPixels (by omega) hbar
      omega
    · cases hbar
  · rcases List.mem_append.mp htext with htext | htext
    · have hlt := y_of_mem_textPixels (by omega) htext
      omega
    · have hlt := y_of_mem_textPixels (by omega) htext
      omega

/-!
## Checked arithmetic
-/

section Checked

variable {σ : Type} [PixelSink σ]

def drawCursorBar? (sink : σ) (y : UInt16) (bar accent : Rgb) : Option σ := do
  let top <- Checked.sub y 2
  let sink := fillRect sink 0 top (width sink) Layout.rowHeight bar
  some (fillRect sink 0 top 4 Layout.rowHeight accent)

/-- `drawRow` where no operation may wrap. -/
def drawRow? (sink : σ) (offset : Nat) (row : PresetRow) (isCursor : Bool) :
    Option σ := do
  let fg : Rgb := { r := 0xe0, g := 0xe0, b := 0xe0 }
  let dim : Rgb := { r := 0x70, g := 0x80, b := 0x90 }
  let accent : Rgb := { r := 0x20, g := 0xc0, b := 0xff }
  let offset <- Checked.cast offset
  let down <- Checked.mul offset Layout.rowHeight
  let y <- Checked.add 8 down
  let sink <-
    if isCursor then
      drawCursorBar? sink y { r := 0x16, g := 0x26, b := 0x34 } accent
    else some sink
  let yName <- Checked.add y 2
  let (sink, _) <- drawText? sink 12 yName row.name.toList
    (if isCursor then accent else fg)
  let yChain <- Checked.add y 14
  let (sink, _) <- drawText? sink 12 yChain row.bankChain.toList dim
  some sink

def drawStatus? (sink : σ) (text : Option String) : Option σ := do
  let sy <- Checked.sub (height sink) Layout.statusHeight
  let sink := fillRect sink 0 sy (width sink) Layout.statusHeight
    { r := 0x10, g := 0x14, b := 0x22 }
  match text with
  | some text => do
      let yText <- Checked.add sy 8
      let (sink, _) <- drawText? sink 8 yText text.toList
        { r := 0x90, g := 0xa0, b := 0xc0 }
      some sink
  | none => some sink

/-- `renderRight` where no operation may wrap. -/
def renderRight? (b : BrowseState) (sink : σ) : Option σ := do
  let sink := erase sink
  let room <- Checked.sub (height sink) Layout.statusHeight
  let visible := (room / Layout.rowHeight).toNat - 1
  let start := b.cursor - visible / 2
  let sink <- ((b.rows.drop start).take visible).zipIdx.foldlM
    (fun sink p => drawRow? sink p.2 p.1 (start + p.2 == b.cursor)) sink
  drawStatus? sink (b.selected.map fun sel =>
    if sel.vendor.isEmpty then sel.pluginRef else sel.vendor)

theorem drawCursorBar?_eq (sink : σ) {y : UInt16} (bar accent : Rgb)
    (hy : 2 ≤ y.toNat) :
    drawCursorBar? sink y bar accent = some (drawCursorBar sink y bar accent) := by
  have hsub : Checked.sub y 2 = some (y - 2) := if_pos hy
  rw [drawCursorBar?, hsub]
  rfl

variable [FixedSize σ]

/-- On a sink of the displays' width the lines of a preset are drawn without a
wrap. -/
theorem drawRow?_eq {sink : σ} (hwidth : (width sink).toNat = 480) {offset : Nat}
    (hoffset : 28 * offset + 52 < 2 ^ 16) (row : PresetRow) (isCursor : Bool) :
    drawRow? sink offset row isCursor = some (drawRow sink offset row isCursor) := by
  have hrow : Layout.rowHeight.toNat = 28 := rfl
  have hcast : Checked.cast offset = some offset.toUInt16 := if_pos (by omega)
  have hnat : offset.toUInt16.toNat = offset := toUInt16_toNat (by omega)
  have hmul : Checked.mul offset.toUInt16 Layout.rowHeight =
      some (offset.toUInt16 * Layout.rowHeight) := if_pos (by rw [hnat, hrow]; omega)
  have hdown : (offset.toUInt16 * Layout.rowHeight).toNat = 28 * offset := by
    rw [UInt16.toNat_mul, hnat, hrow, Nat.mod_eq_of_lt (by omega), Nat.mul_comm]
  have hadd : Checked.add 8 (offset.toUInt16 * Layout.rowHeight) =
      some (8 + offset.toUInt16 * Layout.rowHeight) := by
    refine if_pos ?_
    show 8 + (offset.toUInt16 * Layout.rowHeight).toNat < 2 ^ 16
    omega
  have hy : ((8 : UInt16) + offset.toUInt16 * Layout.rowHeight).toNat = 8 + 28 * offset :=
    lineY_toNat (by
      show 8 + 28 * offset < 2 ^ 16
      omega)
  unfold drawRow? drawRow
  simp only [hcast, hmul, hadd, Option.bind_eq_bind, Option.bind_some]
  generalize (8 : UInt16) + offset.toUInt16 * Layout.rowHeight = y at hy
  have hname : Checked.add y 2 = some (y + 2) := by
    refine if_pos ?_
    show y.toNat + 2 < 2 ^ 16
    omega
  have hchain : Checked.add y 14 = some (y + 14) := by
    refine if_pos ?_
    show y.toNat + 14 < 2 ^ 16
    omega
  have hyName : (y + 2).toNat = y.toNat + 2 := toNat_add_of_lt rfl (by omega)
  have hyChain : (y + 14).toNat = y.toNat + 14 := toNat_add_of_lt rfl (by omega)
  have htext {s : σ} {y' : UInt16} (hs : width s = width sink) (text : List Char)
      (color : Rgb) (hy' : y'.toNat + 8 ≤ 2 ^ 16) :
      drawText? s 12 y' text color = some (drawText s 12 y' text color) := by
    refine drawText?_eq text color ?_ ?_ hy'
    · rw [hs, hwidth]
      omega
    · rw [hs, hwidth]
      show 12 ≤ 480
      omega
  have htexts {s : σ} (hs : width s = width sink) (color dim : Rgb) :
      ((drawText? s 12 (y + 2) row.name.toList color).bind fun r =>
        (drawText? r.1 12 (y + 14) row.bankChain.toList dim).bind fun r => some r.1) =
        some (drawText (drawText s 12 (y + 2) row.name.toList color).1 12 (y + 14)
          row.bankChain.toList dim).1 := by
    have hnext : width (drawText s 12 (y + 2) row.name.toList color).1 = width sink := by
      rw [drawText_eq_plot, width_plot, hs]
    rw [htext hs _ _ (by omega), Option.bind_some, htext hnext _ _ (by omega),
      Option.bind_some]
  simp only [hname, hchain, Option.bind_some]
  cases isCursor with
  | true =>
      rw [if_pos rfl, drawCursorBar?_eq sink _ _ (by omega), Option.bind_some]
      refine htexts ?_ _ _
      rw [drawCursorBar_eq_plot, width_plot]
  | false =>
      exact htexts rfl _ _

theorem drawStatus?_eq {sink : σ} (hwidth : (width sink).toNat = 480)
    (hheight : 24 ≤ (height sink).toNat) (text : Option String) :
    drawStatus? sink text = some (drawStatus sink text) := by
  have hstrip : Layout.statusHeight.toNat = 24 := rfl
  have hword := (height sink).toNat_lt
  have hsub : Checked.sub (height sink) Layout.statusHeight =
      some (height sink - Layout.statusHeight) := if_pos hheight
  have hsy : (height sink - Layout.statusHeight).toNat = (height sink).toNat - 24 :=
    UInt16.toNat_sub_of_le _ _ (UInt16.le_iff_toNat_le.mpr hheight)
  unfold drawStatus? drawStatus
  rw [hsub, Option.bind_eq_bind, Option.bind_some]
  cases text with
  | none =>
      rfl
  | some text =>
      have hadd : Checked.add (height sink - Layout.statusHeight) 8 =
          some (height sink - Layout.statusHeight + 8) := by
        refine if_pos ?_
        show (height sink - Layout.statusHeight).toNat + 8 < 2 ^ 16
        omega
      have hyText : (height sink - Layout.statusHeight + 8).toNat =
          (height sink - Layout.statusHeight).toNat + 8 := toNat_add_of_lt rfl (by omega)
      simp only [hadd, Option.bind_eq_bind, Option.bind_some]
      rw [drawText?_eq _ _ _ _ (by omega)]
      · rfl
      · rw [fillRect_eq_plot, width_plot, hwidth]
        omega
      · rw [fillRect_eq_plot, width_plot, hwidth]
        show 8 ≤ 480
        omega

theorem renderRight?_eq (b : BrowseState) {sink : σ} (hwidth : (width sink).toNat = 480)
    (hheight : 80 ≤ (height sink).toNat) :
    b.renderRight? sink = some (b.renderRight sink) := by
  have hsize : width (erase sink) = width sink ∧ height (erase sink) = height sink := by
    rw [erase, fillRect_eq_plot, width_plot, height_plot]
    exact ⟨rfl, rfl⟩
  have hsub : Checked.sub (height sink) Layout.statusHeight =
      some (height sink - Layout.statusHeight) := by
    refine if_pos ?_
    show 24 ≤ (height sink).toNat
    omega
  have hbounds := (visible_bounds hheight).right
  have hword := (height sink).toNat_lt
  unfold renderRight? renderRight
  simp only [hsize.right, hsub, Option.bind_eq_bind, Option.bind_some]
  have hstep (start : Nat) (s : σ) (p : PresetRow × Nat)
      (hs : width s = width sink ∧ height s = height sink)
      (hp : p ∈ ((b.rows.drop start).take (visible (height sink))).zipIdx) :
      drawRow? s p.2 p.1 (start + p.2 == b.cursor) =
          some (drawRow s p.2 p.1 (start + p.2 == b.cursor)) ∧
        width (drawRow s p.2 p.1 (start + p.2 == b.cursor)) = width sink ∧
        height (drawRow s p.2 p.1 (start + p.2 == b.cursor)) = height sink := by
    have hlt := List.snd_lt_of_mem_zipIdx hp
    rw [List.length_take] at hlt
    rw [drawRow_eq_plot, width_plot, height_plot, <- drawRow_eq_plot]
    exact ⟨drawRow?_eq (hs.left ▸ hwidth) (by omega) _ _, hs⟩
  rcases Fallible.foldlM_eq_foldl_of_invariant _ (hstep _) hsize with
    ⟨hrun, hwidth', hheight'⟩
  unfold visible at hrun hwidth' hheight'
  rw [hrun, Option.bind_some]
  refine drawStatus?_eq ?_ ?_ _
  · rw [hwidth', hwidth]
  · rw [hheight']
    omega

end Checked

/-- Wherever the cursor is in the list, the selected preset is drawn, it alone is
highlighted, and all lines stay above the status strip. -/
theorem selected_row_on_screen {σ : Type} [PixelSink σ] [FixedSize σ] (sink : σ)
    (hwidth : width sink = 480) (hheight : 80 ≤ (height sink).toNat) (b : BrowseState)
    (hcursor : b.cursor < b.rows.length) :
    let start := b.start (height sink)
    let lines := b.rowLines (width sink) (height sink)
    b.renderRight sink =
        drawStatus (plot (erase sink) (lines.flatMap ListLine.pixels)) b.caption ∧
      (start ≤ b.cursor ∧ b.cursor < start + visible (height sink)) ∧
      (exists line, lines.filter ListLine.isCursor = [line] ∧
        some line.item = b.rows[b.cursor]?) ∧
      lines.length ≤ visible (height sink) ∧
      (forall line, line ∈ lines -> forall p, p ∈ line.pixels ->
        p.y.toNat < (height sink).toNat - 24) ∧
      b.renderRight? sink = some (b.renderRight sink) ∧
      forall offset, offset < lines.length -> start + offset < b.rows.length := by
  have hlength (width : UInt16) : (b.rowLines width (height sink)).length =
      min (visible (height sink)) (b.rows.length - b.start (height sink)) := by
    rw [rowLines, List.length_map, List.length_zipIdx, List.length_take, List.length_drop]
  have hnat : (width sink).toNat = 480 := by
    rw [hwidth]
    rfl
  refine ⟨b.renderRight_eq sink, cursor_mem_window b hheight,
    filter_isCursor_rowLines hheight hcursor _, ?_, ?_, b.renderRight?_eq hnat hheight, ?_⟩
  · rw [hlength]
    exact Nat.min_le_left _ _
  · intro line hline p hp
    rcases List.mem_map.mp hline with ⟨q, hq, rfl⟩
    have hlt := List.snd_lt_of_mem_zipIdx hq
    rw [List.length_take] at hlt
    exact y_of_mem_rowLine hheight (by omega) hp
  · intro offset hoffset
    rw [hlength] at hoffset
    omega

private def manyPresets : List PresetRow :=
  (List.range 20).map fun n =>
    { id := n, path := [], name := "a", vendor := "", pluginRef := "", bankChain := "" }

/-- The window has moved down with the cursor. -/
theorem selected_row_on_screen_manyPresets :
    let b : BrowseState := { rows := manyPresets, cursor := 10 }
    visible 272 < b.rows.length ∧ 0 < b.start 272 ∧
      (b.start 272 ≤ 10 ∧ 10 < b.start 272 + visible 272) ∧
      exists line, (b.rowLines 480 272).filter ListLine.isCursor = [line] ∧
        some line.item = b.rows[b.cursor]? := by
  have h := selected_row_on_screen Display.Framebuffer.new rfl (by decide)
    { rows := manyPresets, cursor := 10 } (by decide)
  exact ⟨by decide, by decide, h.right.left, h.right.right.left⟩

/-!
## Facets
-/

def facetY (i : Nat) : UInt16 :=
  Layout.breadcrumbHeight + 8 + i.toUInt16 * Layout.rowHeight

def facetBar : Rgb := { r := 0x1c, g := 0x22, b := 0x30 }

def facetAccent : Rgb := { r := 0xff, g := 0x80, b := 0x20 }

def facetLine (width : UInt16) (i : Nat) (val : String) (isCursor : Bool) :
    ListLine String :=
  let fg : Rgb := { r := 0xe0, g := 0xe0, b := 0xe0 }
  { item := val
    isCursor := isCursor
    pixels :=
      (if isCursor then barPixels width (facetY i) facetBar facetAccent else []) ++
        textPixels width 12 (facetY i + 4) val.toList (if isCursor then facetAccent else fg) }

/-- The facets from position `i` on that are drawn. -/
def facetLines (b : BrowseState) (width height : UInt16) (i : Nat) :
    List String -> List (ListLine String)
  | [] => []
  | val :: rest =>
      if facetY i + Layout.rowHeight > height - Layout.statusHeight then []
      else
        facetLine width i val (i == b.facetCursor) ::
          facetLines b width height (i + 1) rest

/-- What the left display shows above the facets. -/
def drawBreadcrumb {σ : Type} [PixelSink σ] (b : BrowseState) (sink : σ) : σ :=
  let sink := erase sink
  let sink := fillRect sink 0 0 (width sink) Layout.breadcrumbHeight
    { r := 0x10, g := 0x14, b := 0x22 }
  (drawText sink 8 8 b.breadcrumb.toList { r := 0xe0, g := 0xe0, b := 0xe0 }).1

section FixedSize

variable {σ : Type} [PixelSink σ] [FixedSize σ]

theorem drawFacet_eq_plot (sink : σ) (i : Nat) (val : String) (isCursor : Bool) :
    (drawText
      (if isCursor = true then drawCursorBar sink (facetY i) facetBar facetAccent else sink)
      12 (facetY i + 4) val.toList
      (if isCursor = true then facetAccent else { r := 0xe0, g := 0xe0, b := 0xe0 })).1 =
      plot sink (facetLine (width sink) i val isCursor).pixels := by
  unfold facetLine
  cases isCursor with
  | true =>
      simp only [if_true, drawText_eq_plot, drawCursorBar_eq_plot, plot_append, width_plot]
  | false =>
      simp only [Bool.false_eq_true, if_false, drawText_eq_plot, List.nil_append]

theorem drawFacets_eq_plot (b : BrowseState) (i : Nat) (values : List String) (sink : σ) :
    b.drawFacets i values sink =
      plot sink ((b.facetLines (width sink) (height sink) i values).flatMap
        ListLine.pixels) := by
  induction values generalizing i sink with
  | nil =>
      rfl
  | cons val rest ih =>
      have hline := drawFacet_eq_plot sink i val (i == b.facetCursor)
      simp only [beq_iff_eq] at hline
      rw [drawFacets, facetLines]
      by_cases hfull : facetY i + Layout.rowHeight > height sink - Layout.statusHeight
      · rw [if_pos hfull]
        exact if_pos hfull
      · rw [if_neg hfull, List.flatMap_cons, plot_append]
        refine (if_neg hfull).trans ?_
        refine (congrArg (b.drawFacets (i + 1) rest) hline).trans ?_
        rw [ih, width_plot, height_plot]

theorem renderLeft_eq (b : BrowseState) (sink : σ) :
    b.renderLeft sink =
      drawStatus
        (plot (b.drawBreadcrumb sink)
          ((b.facetLines (width sink) (height sink) 0 b.facetValues).flatMap
            ListLine.pixels))
        (some (toString b.rows.length ++ " presets")) := by
  have hsize : width (b.drawBreadcrumb sink) = width sink ∧
      height (b.drawBreadcrumb sink) = height sink := by
    rw [drawBreadcrumb, drawText_eq_plot, erase, fillRect_eq_plot, fillRect_eq_plot]
    simp
  have hfacets := b.drawFacets_eq_plot 0 b.facetValues (b.drawBreadcrumb sink)
  rw [hsize.left, hsize.right] at hfacets
  rw [<- hfacets]
  rfl

end FixedSize

/-- The highlighted facet is drawn, bar and text, above the status strip. -/
def FacetOnScreen (b : BrowseState) (width height : UInt16) : Prop :=
  exists line, line ∈ b.facetLines width height 0 b.facetValues ∧
    line.isCursor = true ∧ some line.item = b.facetValues[b.facetCursor]? ∧
    barPixels width (facetY b.facetCursor) facetBar facetAccent <+: line.pixels ∧
    forall p, p ∈ line.pixels -> p.y.toNat < height.toNat - 24

theorem facetY_toNat {i : Nat} (h : i ≤ 7) : (facetY i).toNat = 40 + 28 * i :=
  lineY_toNat (by
    show 40 + 28 * i < 2 ^ 16
    omega)

/-- On a screen of 272 lines the loop ends before the eighth facet. -/
theorem facetLines_272 (b : BrowseState) (width : UInt16) {i : Nat} (hi : i ≤ 7)
    (values : List String) :
    b.facetLines width 272 i values =
      ((values.take (7 - i)).zipIdx i).map fun p =>
        facetLine width p.2 p.1 (p.2 == b.facetCursor) := by
  induction values generalizing i with
  | nil =>
      rw [List.take_nil]
      rfl
  | cons val rest ih =>
      have hy := facetY_toNat hi
      have hbottom : (facetY i + Layout.rowHeight).toNat = (facetY i).toNat + 28 :=
        toNat_add_of_lt rfl (by omega)
      have hroom : (272 - Layout.statusHeight : UInt16).toNat = 248 := rfl
      rw [facetLines]
      by_cases hlast : i = 7
      · rw [if_pos, hlast]
        · rfl
        · rw [gt_iff_lt, UInt16.lt_iff_toNat_lt]
          omega
      · have htake : 7 - i = (7 - (i + 1)) + 1 := by
          omega
        rw [if_neg, ih (by omega), htake, List.take_succ_cons, List.zipIdx_cons,
          List.map_cons]
        rw [gt_iff_lt, UInt16.lt_iff_toNat_lt]
        omega

theorem facetOnScreen_iff {b : BrowseState} (width : UInt16)
    (hcursor : b.facetCursor < b.facetValues.length) :
    b.FacetOnScreen width 272 <-> b.facetCursor < 7 := by
  unfold FacetOnScreen
  rw [facetLines_272 b width (Nat.zero_le 7)]
  constructor
  · rintro ⟨line, hline, hflag, -⟩
    rcases List.mem_map.mp hline with ⟨q, hq, rfl⟩
    have hlt := List.snd_lt_of_mem_zipIdx hq
    rw [List.length_take] at hlt
    have hindex : q.2 = b.facetCursor := beq_iff_eq.mp hflag
    omega
  · intro hlt
    have hmem : (b.facetValues[b.facetCursor], b.facetCursor) ∈
        (b.facetValues.take (7 - 0)).zipIdx := by
      rw [List.mem_zipIdx_iff_getElem?, List.getElem?_take_of_lt (by omega),
        List.getElem?_eq_getElem hcursor]
    refine ⟨_, List.mem_map_of_mem hmem, beq_self_eq_true _,
      (List.getElem?_eq_getElem hcursor).symm, ?_, ?_⟩
    · simp only [facetLine, beq_self_eq_true, if_true]
      exact List.prefix_append _ _
    · intro p hp
      have hy := facetY_toNat (Nat.le_of_lt hlt)
      have htext : (facetY b.facetCursor + 4).toNat = (facetY b.facetCursor).toNat + 4 :=
        toNat_add_of_lt rfl (by omega)
      have hroom : (272 : UInt16).toNat = 272 := rfl
      simp only [facetLine, beq_self_eq_true, if_true] at hp
      rcases List.mem_append.mp hp with hbar | htexts
      · have hlines := y_of_mem_barPixels (by omega) hbar
        omega
      · have hlines := y_of_mem_textPixels (by omega) htexts
        omega

/-- The facets the daemon starts with. -/
def daemonFacets : List String :=
  ["Synth", "Bass", "Lead", "Pad", "Keys", "Drums", "Percussion", "FX"]

/-- On the displays, the highlighted facet is shown exactly while it is one of
the first seven. -/
theorem highlighted_facet_on_screen {σ : Type} [PixelSink σ] [FixedSize σ] (sink : σ)
    (hwidth : width sink = 480) (hheight : height sink = 272) (b : BrowseState)
    (hcursor : b.facetCursor < b.facetValues.length) :
    b.renderLeft sink =
        drawStatus
          (plot (b.drawBreadcrumb sink)
            ((b.facetLines 480 272 0 b.facetValues).flatMap ListLine.pixels))
          (some (toString b.rows.length ++ " presets")) ∧
      (b.FacetOnScreen 480 272 <-> b.facetCursor < 7) := by
  refine ⟨?_, facetOnScreen_iff 480 hcursor⟩
  rw [renderLeft_eq, hwidth, hheight]

theorem highlighted_facet_on_screen_first :
    let b : BrowseState := { facetValues := daemonFacets }
    b.FacetOnScreen 480 272 <-> b.facetCursor < 7 :=
  (highlighted_facet_on_screen Display.Framebuffer.new rfl rfl
    { facetValues := daemonFacets } (by decide)).right

/-- One step back from the first facet leads to the last, which is not shown. -/
theorem highlighted_facet_off_screen :
    let b := (BrowseState.navigate { facetValues := daemonFacets }
      (.macroEncoder 0 (-1) 0)).1
    b.facetCursor < b.facetValues.length ∧ Not (b.FacetOnScreen 480 272) := by
  intro b
  have hcursor : b.facetCursor < b.facetValues.length := by
    decide
  refine ⟨hcursor, ?_⟩
  rw [facetOnScreen_iff 480 hcursor]
  decide

end BrowseState

end Ui
end OpenMk3
