import OpenMk3.Display.Encoder

/-!
# Bounds of an encoded frame

`encode_frame` with every check made: here a lossy cast and a pair count that
takes more than 24 bits are failures as well.  No check fails, and a frame is no
longer than a full screen sent as one blit for each row of tiles.
-/

namespace OpenMk3
namespace Display

open Library Proto

/-- The largest frame that one transfer may carry. -/
def maschineBulkFrameMax : Nat := 524288

/-!
## Checked operations
-/

/-- `n as u16`; `none` when something is lost. -/
def word16? (n : Nat) : Option UInt16 :=
  if n < 2 ^ 16 then some n.toUInt16 else none

/-- `n as u32`; `none` when something is lost. -/
def word32? (n : Nat) : Option UInt32 :=
  if n < 2 ^ 32 then some n.toUInt32 else none

/-- A pair count as the three bytes of a command carry it. -/
def pairCount? (n : Nat) : Option UInt32 := do
  let pairs <- word32? n
  if pairs.toNat < 2 ^ 24 then some pairs else none

/-- A write through `&mut out[off..]`; `none` when the slice is out of range. -/
def writeAt? {α : Type} (off : Nat) (w : Encoder α) (out : List UInt8) :
    Option (α × List UInt8) :=
  if off ≤ out.length then Writer.unwrap (Writer.onSuffix off w out) else none

theorem word16?_of_lt {n : Nat} (h : n < 2 ^ 16) : word16? n = some n.toUInt16 :=
  if_pos h

theorem pairCount?_of_lt {n : Nat} (h : n < 2 ^ 24) :
    pairCount? n = some n.toUInt32 := by
  have hword : word32? n = some n.toUInt32 := if_pos (by omega)
  have hcount : n.toUInt32.toNat < 2 ^ 24 := by
    rw [toUInt32_toNat (by omega)]
    exact h
  rw [pairCount?, hword]
  exact if_pos hcount

theorem writeAt?_of_le {α : Type} {off : Nat} (w : Encoder α) {out : List UInt8}
    (h : off ≤ out.length) :
    writeAt? off w out = Writer.unwrap (Writer.onSuffix off w out) :=
  if_pos h

/-!
## The encoder with its checks
-/

/-- The capacity that `encode_frame` reserves. -/
def estimateCapacity (runs : List (Nat × Nat × Nat)) : Option Nat := do
  let n <- runs.foldlM
    (fun n run => do
      let (_, c0, c1) := run
      let tiles := (<- sub? c1 c0) + 1
      let pixels := tiles * tile * tile
      some (n + (displayHeaderLen + displayCmdLen + pixels * 2)))
    0
  some (n + displayCmdLen * 2)

/-- `encodeRun` with every check made. -/
def checkedRun (id : DisplayId) (fb : Framebuffer) (x y w h : Nat)
    (out : List UInt8) : Option (List UInt8) := do
  let headerOffset := out.length
  let out := resize out (headerOffset + displayHeaderLen) 0
  let rect : Rect := { x := <- word16? x, y := <- word16? y, w := <- word16? w
                       h := <- word16? h }
  let (_, out) <- writeAt? headerOffset (encodeHeader id rect) out
  let words <- (List.range' y h).foldlM
    (fun words yy => do
      let row <- slice? fb.pixels.toList (yy * screenW + x) (yy * screenW + x + w)
      some (words ++ row))
    []
  let first <- words[0]?
  let pairs <- pairCount? (words.length / 2)
  let cmd := List.replicate displayCmdLen 0
  if words.all fun p => p == first then
    let (_, cmd) <- Writer.unwrap (encodeRepeatCmd pairs (pairOf first) cmd)
    some (out ++ cmd)
  else
    let (_, cmd) <- Writer.unwrap (encodeBlitCmd pairs cmd)
    let out := out ++ cmd
    let payLen := words.length * 2
    let payOffset := out.length
    let out := resize out (payOffset + payLen) 0
    let payload <- packRgb565Be words (<- slice? out payOffset out.length)
    let out := out.take payOffset ++ payload
    if payLen % displayCmdLen = 0 then some out else none

/-- `encodeFrame` with every check made. -/
def checkedFrame (id : DisplayId) (fb : Framebuffer) :
    Option (List UInt8 × Framebuffer) := do
  let _capacity <- estimateCapacity fb.dirty.runs
  let out <- fb.dirty.runs.foldlM
    (fun out run => do
      let (row, c0, c1) := run
      let y := row * tile
      let x := c0 * tile
      let h := min tile (<- sub? screenH y)
      let w := min (((<- sub? c1 c0) + 1) * tile) (<- sub? screenW x)
      checkedRun id fb x y w h out)
    []
  let tail := List.replicate (displayCmdLen * 2) 0
  let off := 0
  let (n, tail) <- writeAt? off encodeFlushCmd tail
  let off := off + n
  let (n, tail) <- writeAt? off encodeEndCmd tail
  let off := off + n
  let tail <- slice? tail 0 off
  some (out ++ tail, { fb with dirty := fb.dirty.clear })

/-!
## No check fails
-/

theorem slice?_to_end {xs : List UInt8} {lo : Nat} (h : lo ≤ xs.length) :
    slice? xs lo xs.length = some (xs.drop lo) := by
  rw [slice?_of_le h (Nat.le_refl _), List.take_of_length_le]
  rw [List.length_drop]

theorem checkedRun_eq (id : DisplayId) (fb : Framebuffer) {x y w h : Nat}
    (hx : x + w ≤ screenW) (hy : y + h ≤ screenH) (out : List UInt8) :
    checkedRun id fb x y w h out = encodeRun id fb x y w h out := by
  have hwidth : screenW = 480 := rfl
  have hheight : screenH = 272 := rfl
  have hroom : out.length ≤ (resize out (out.length + displayHeaderLen) 0).length := by
    rw [resize_length_add, List.length_append]
    exact Nat.le_add_right _ _
  have hsize : w * h ≤ 480 * 272 := Nat.mul_le_mul (by omega) (by omega)
  have hlen := Raster.length_readRect fb.pixelAt x y w h
  have hpairs := pairCount?_of_lt
    (show (Raster.readRect fb.pixelAt x y w h).length / 2 < 2 ^ 24 by omega)
  unfold checkedRun encodeRun
  rw [collect_rows fb hx hy]
  generalize Raster.readRect fb.pixelAt x y w h = words at hpairs ⊢
  simp only [word16?_of_lt (show x < 2 ^ 16 by omega),
    word16?_of_lt (show y < 2 ^ 16 by omega), word16?_of_lt (show w < 2 ^ 16 by omega),
    word16?_of_lt (show h < 2 ^ 16 by omega), Option.bind_eq_bind, Option.bind_some,
    writeAt?_of_le _ hroom, hpairs]
  have hslice : forall front : List UInt8,
      slice? (resize front (front.length + words.length * 2) 0) front.length
          (resize front (front.length + words.length * 2) 0).length =
        some ((resize front (front.length + words.length * 2) 0).drop front.length) := by
    intro front
    apply slice?_to_end
    rw [resize_length_add, List.length_append]
    exact Nat.le_add_right _ _
  simp only [hslice, Option.bind_some, rectOf]

/-- The most that the block of a run takes. -/
def runCapacity (run : Nat × Nat × Nat) : Nat :=
  displayHeaderLen + displayCmdLen + (run.2.2 - run.2.1 + 1) * tile * tile * 2

theorem estimateCapacity_eq {runs : List (Nat × Nat × Nat)}
    (hon : forall run, run ∈ runs -> RunOnScreen run) :
    estimateCapacity runs = some ((runs.map runCapacity).sum + displayCmdLen * 2) := by
  have hloop : forall n, runs.foldlM
      (fun n run => do
        let (_, c0, c1) := run
        let tiles := (<- sub? c1 c0) + 1
        let pixels := tiles * tile * tile
        some (n + (displayHeaderLen + displayCmdLen + pixels * 2)))
      n = some (n + (runs.map runCapacity).sum) := by
    induction runs with
    | nil => simp
    | cons run rest ih =>
        intro n
        rcases run with ⟨row, c0, c1⟩
        have hle : c0 ≤ c1 := (hon _ List.mem_cons_self).le
        have hrest := ih (fun r hr => hon r (List.mem_cons_of_mem _ hr))
        simp only [List.foldlM_cons, sub?_of_le hle, Option.bind_eq_bind,
          Option.bind_some] at hrest ⊢
        rw [hrest, List.map_cons, List.sum_cons, Nat.add_assoc]
        rfl
  unfold estimateCapacity
  rw [hloop, Nat.zero_add]
  rfl

theorem checkedFrame_eq (id : DisplayId) (fb : Framebuffer) :
    checkedFrame id fb = encodeFrame id fb := by
  rw [encodeFrame_eq]
  unfold checkedFrame
  rw [foldlM_append_eq_some _ (runBytes id fb)]
  · rw [estimateCapacity_eq fun _ hmem => runOnScreen_of_mem hmem]
    rfl
  · rintro ⟨row, c0, c1⟩ hmem out
    have hfits := (runOnScreen_of_mem hmem).rectFits
    simp only [sub?_of_le hfits.y_le, sub?_of_le hfits.le, sub?_of_le hfits.x_le,
      hfits.width, hfits.height, Option.bind_eq_bind, Option.bind_some]
    rw [checkedRun_eq id fb hfits.right hfits.bottom]
    exact encodeRun_of_fits id fb hfits out

/-!
## The length of a frame
-/

/-- A block is a header, a command and at most two bytes for each pixel. -/
theorem length_blockBytes (id : DisplayId) (rect : Rect) {words : List UInt16}
    {n : Nat} (hn : words.length = 4 * n) (hpos : 0 < n) :
    8 ∣ (blockBytes id rect words).length ∧
      (blockBytes id rect words).length ≤
        displayHeaderLen + displayCmdLen + words.length * 2 := by
  have htwo : words.length = 2 * (2 * n) := by omega
  rw [blockBytes, List.length_append, length_headerBytes]
  rcases bodyBytes_cases htwo (by omega) with ⟨word, _, hbody⟩ | hbody
  · rw [hbody, length_repeatCmd]
    exact ⟨by decide, Nat.le_add_right _ _⟩
  · rw [hbody, List.length_append, length_blitCmd, length_flatMap_toBeBytes]
    simp only [displayHeaderLen, displayCmdLen]
    omega

theorem length_runBytes (id : DisplayId) (fb : Framebuffer) (run : Nat × Nat × Nat) :
    8 ∣ (runBytes id fb run).length ∧
      (runBytes id fb run).length ≤ runCapacity run := by
  rcases run with ⟨row, c0, c1⟩
  have hwords := Raster.length_readRect fb.pixelAt (c0 * tile) (row * tile)
    ((c1 - c0 + 1) * tile) tile
  have hfour : (c1 - c0 + 1) * tile * tile = 4 * ((c1 - c0 + 1) * 64) := by
    simp only [tile]
    omega
  have hblock := length_blockBytes id
    (rectOf (c0 * tile) (row * tile) ((c1 - c0 + 1) * tile) tile)
    (hwords.trans hfour) (by omega)
  rw [hwords] at hblock
  exact hblock

theorem length_runs (id : DisplayId) (fb : Framebuffer)
    (runs : List (Nat × Nat × Nat)) :
    8 ∣ (runs.flatMap (runBytes id fb)).length ∧
      (runs.flatMap (runBytes id fb)).length ≤ (runs.map runCapacity).sum := by
  induction runs with
  | nil => simp
  | cons run rest ih =>
      have hrun := length_runBytes id fb run
      rw [List.flatMap_cons, List.length_append, List.map_cons, List.sum_cons]
      exact ⟨Nat.dvd_add hrun.left ih.left, Nat.add_le_add hrun.right ih.right⟩

/-- More runs in a row cost more headers but leave fewer tiles to send: with one
index for the gap behind it, a run pays for its header. -/
theorem sum_runCapacity (r : Nat) (runs : List (Nat × Nat)) :
    (runs.map fun run => runCapacity (r, run)).sum + 472 * runs.length =
      512 * (runs.map fun run => run.2 - run.1 + 2).sum := by
  induction runs with
  | nil => rfl
  | cons run rest ih =>
      simp only [List.map_cons, List.sum_cons, List.length_cons, runCapacity,
        displayHeaderLen, displayCmdLen, tile] at ih ⊢
      omega

/-- A row costs at most what one run over all its tiles costs. -/
theorem rowCapacity_le (p : Nat -> Bool) (r : Nat) :
    ((Runs.runsFrom p cols 0).map fun run => runCapacity (r, run)).sum ≤ 15400 := by
  have hsum := sum_runCapacity r (Runs.runsFrom p cols 0)
  have hfit := (Runs.sum_runsFrom_le p cols 0).left
  cases hruns : Runs.runsFrom p cols 0 with
  | nil => simp
  | cons run rest =>
      rw [hruns] at hsum hfit
      simp only [List.length_cons, cols] at hsum hfit
      omega

theorem sum_capacity_le (d : DirtyTracker) :
    (d.runs.map runCapacity).sum ≤ rows * 15400 := by
  have hrows : forall rs : List Nat,
      ((rs.flatMap fun r => (Runs.runsFrom (fun c => d.isTileDirty c r) cols 0).map
        fun run => (r, run.1, run.2)).map runCapacity).sum ≤ rs.length * 15400 := by
    intro rs
    induction rs with
    | nil => simp
    | cons r rest ih =>
        have hrow := rowCapacity_le (fun c => d.isTileDirty c r) r
        rw [List.flatMap_cons, List.map_append, List.sum_append, List.map_map,
          List.length_cons, Nat.succ_mul, Nat.add_comm]
        exact Nat.add_le_add ih hrow
  have hall := hrows (List.range rows)
  rw [List.length_range] at hall
  exact hall

/-- Encoding meets none of its failures and loses nothing in a cast, and the
frame is a positive multiple of the command size, within the reserved capacity
and within 261816 bytes, which one bulk transfer carries. -/
theorem encodeFrame_bounded (id : DisplayId) (fb : Framebuffer) :
    exists bytes fb' capacity,
      checkedFrame id fb = some (bytes, fb') ∧
      encodeFrame id fb = some (bytes, fb') ∧
      estimateCapacity fb.dirty.runs = some capacity ∧
      (0 < bytes.length ∧ 8 ∣ bytes.length) ∧
      bytes.length ≤ capacity ∧
      bytes.length ≤ 261816 ∧ 261816 < maschineBulkFrameMax := by
  have hframe := encodeFrame_eq id fb
  have hchecked := (checkedFrame_eq id fb).trans hframe
  have hcapacity := estimateCapacity_eq
    (fun run (hmem : run ∈ fb.dirty.runs) => runOnScreen_of_mem hmem)
  refine ⟨_, _, _, hchecked, hframe, hcapacity, ?_⟩
  have hruns := length_runs id fb fb.dirty.runs
  have hsum := sum_capacity_le fb.dirty
  have hclosing : closing.length = 16 := rfl
  rw [frameBytes, List.length_append, hclosing]
  simp only [displayCmdLen, rows, maschineBulkFrameMax] at hsum ⊢
  omega

end Display
end OpenMk3
