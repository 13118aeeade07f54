import OpenMk3.Display.Encoder

/-!
# Reference reader of the block stream

The device side of a display transfer, written from the description of the
stream and not from the encoder: blocks of a 32-byte header and one command
with its payload, closed by a flush and an end command.  The main theorem says
that reading what the encoder sends copies the dirty tiles onto the screen.
-/

namespace OpenMk3
namespace Display

open Library Proto

abbrev Screens : Type := DisplayId -> Raster UInt16

structure Block where
  display : UInt8
  rect : Rect
  pairs : Nat
  pixels : List UInt16
deriving DecidableEq, Repr

def readPixels : List UInt8 -> List UInt16
  | hi :: lo :: rest => ofBeBytes hi lo :: readPixels rest
  | _ => []

/-- Read a header and one command with its payload. -/
def readBlock (bytes : List UInt8) : Option (Block × List UInt8) :=
  let byte := fun i => bytes.getD i 0
  let word := fun i => ofBeBytes (byte i) (byte (i + 1))
  if bytes.length < displayHeaderLen + displayCmdLen ∨ byte 0 ≠ 0x84 then none
  else
    let display := byte 2
    let rect := { x := word 16, y := word 18, w := word 20, h := word 22 }
    let n := ofBeBytes24 (byte 33) (byte 34) (byte 35)
    let rest := bytes.drop (displayHeaderLen + displayCmdLen)
    if byte 32 = 0x01 then
      let pixels := (List.replicate n [word 36, word 38]).flatten
      some ({ display, rect, pairs := n, pixels }, rest)
    else if byte 32 = 0x00 ∧ 4 * n ≤ rest.length then
      let pixels := readPixels (rest.take (4 * n))
      some ({ display, rect, pairs := n, pixels }, rest.drop (4 * n))
    else none

theorem readBlock_shorter {bytes rest : List UInt8} {b : Block}
    (h : readBlock bytes = some (b, rest)) : rest.length < bytes.length := by
  simp only [readBlock] at h
  split at h
  · cases h
  · rename_i hlen
    split at h
    · cases h
      rw [List.length_drop]
      simp at hlen ⊢
      omega
    · split at h
      · cases h
        rw [List.length_drop, List.length_drop]
        simp at hlen ⊢
        omega
      · cases h

/-- Read blocks until the closing commands, with nothing left over. -/
def readStream (bytes : List UInt8) : Option (List Block) :=
  if bytes = closing then some []
  else
    match h : readBlock bytes with
    | none => none
    | some (b, rest) =>
        have := readBlock_shorter h
        (readStream rest).map fun bs => b :: bs
termination_by bytes.length

def paintBlock (screens : Screens) (b : Block) : Screens := fun id =>
  if id.toByte = b.display then
    (screens id).paint b.rect.x.toNat b.rect.y.toNat b.rect.w.toNat b.pixels
  else screens id

theorem paintBlock_of_display (screens : Screens) {b : Block} {id : DisplayId}
    (h : id.toByte = b.display) :
    paintBlock screens b id =
      (screens id).paint b.rect.x.toNat b.rect.y.toNat b.rect.w.toNat
        b.pixels :=
  if_pos h

theorem paintBlock_of_other (screens : Screens) {b : Block} {id : DisplayId}
    (h : id.toByte ≠ b.display) : paintBlock screens b id = screens id :=
  if_neg h

def paintBlocks (screens : Screens) (blocks : List Block) : Screens :=
  blocks.foldl paintBlock screens

/-- The screens after reading a transfer; `none` when it is malformed. -/
def showTransfer (screens : Screens) (bytes : List UInt8) : Option Screens :=
  (readStream bytes).map (paintBlocks screens)

/-!
## Reading one block
-/

theorem readPixels_toBeBytes (words : List UInt16) :
    readPixels (words.flatMap toBeBytes) = words := by
  induction words with
  | nil => rfl
  | cons w rest ih =>
      rw [List.flatMap_cons]
      show ofBeBytes (hiByte w) (loByte w) ::
        readPixels (rest.flatMap toBeBytes) = w :: rest
      rw [ofBeBytes_hiByte_loByte, ih]

private theorem flatten_replicate_pair (n : Nat) (word : UInt16) :
    (List.replicate n [word, word]).flatten = List.replicate (2 * n) word := by
  have hpair : [word, word] = List.replicate 2 word := rfl
  rw [hpair, List.flatten_replicate_replicate, Nat.mul_comm]

theorem readBlock_repeat (id : DisplayId) (rect : Rect) (count : UInt32)
    (word : UInt16) (hcount : count.toNat < 2 ^ 24) (rest : List UInt8) :
    readBlock (headerBytes id rect ++ repeatCmd count (pairOf word) ++ rest) =
      some ({ display := id.toByte
              rect := rect
              pairs := count.toNat
              pixels := (List.replicate count.toNat [word, word]).flatten },
        rest) := by
  rcases ofBeBytes24_toBeBytes24 count hcount with ⟨a, b, c, hbytes, hn⟩
  simp [readBlock, headerBytes, repeatCmd, pairOf, hbytes, hn]

theorem readBlock_blit (id : DisplayId) (rect : Rect) (count : UInt32)
    (words : List UInt16) (hcount : count.toNat < 2 ^ 24)
    (hlen : words.length = 2 * count.toNat) (rest : List UInt8) :
    readBlock (headerBytes id rect ++
        (blitCmd count ++ words.flatMap toBeBytes) ++ rest) =
      some ({ display := id.toByte
              rect := rect
              pairs := count.toNat
              pixels := words },
        rest) := by
  rcases ofBeBytes24_toBeBytes24 count hcount with ⟨a, b, c, hbytes, hn⟩
  have hpayload : (words.flatMap toBeBytes).length = 4 * count.toNat := by
    rw [length_flatMap_toBeBytes]
    omega
  have hread := readPixels_toBeBytes words
  generalize words.flatMap toBeBytes = payload at hpayload hread ⊢
  simp [readBlock, headerBytes, blitCmd, hbytes, hn, ← hpayload, hread]

/-- The block that the reader makes of an encoded rectangle. -/
def blockOf (id : DisplayId) (rect : Rect) (words : List UInt16) : Block :=
  { display := id.toByte
    rect := rect
    pairs := words.length / 2
    pixels := words }

theorem readBlock_blockBytes (id : DisplayId) (rect : Rect)
    {words : List UInt16} {n : Nat} (hn : words.length = 2 * n)
    (hpos : 0 < n) (hsize : n < 2 ^ 24) (rest : List UInt8) :
    readBlock (blockBytes id rect words ++ rest) =
      some (blockOf id rect words, rest) := by
  have hpairs : words.length / 2 = n := by omega
  have hword : n.toUInt32.toNat = n := toUInt32_toNat (by omega)
  rw [blockBytes, blockOf, hpairs]
  rcases bodyBytes_cases hn hpos with ⟨word, hsolid, hbody⟩ | hbody
  · rw [hbody, readBlock_repeat _ _ _ _ (by omega), hword,
      flatten_replicate_pair, ← hsolid]
  · rw [hbody, readBlock_blit _ _ _ _ (by omega) (by omega), hword]

/-!
## Reading a whole transfer
-/

theorem readStream_closing : readStream closing = some [] := by
  rw [readStream, if_pos rfl]

theorem readStream_of_block {bytes rest : List UInt8} {b : Block}
    (h : readBlock bytes = some (b, rest)) :
    readStream bytes = (readStream rest).map fun bs => b :: bs := by
  have hne : bytes ≠ closing := by
    intro heq
    rw [heq] at h
    simp [readBlock, closing, flushCmd, endCmd] at h
  rw [readStream, if_neg hne]
  split
  · rename_i hnone
    rw [h] at hnone
    cases hnone
  · rename_i hsome
    rw [h] at hsome
    cases hsome
    rfl

def runBlock (id : DisplayId) (fb : Framebuffer) (run : Nat × Nat × Nat) :
    Block :=
  let (x, y, w, h) := runRect run
  blockOf id (rectOf x y w h) (Raster.readRect fb.pixelAt x y w h)

theorem readBlock_runBytes (id : DisplayId) (fb : Framebuffer)
    {run : Nat × Nat × Nat} (hon : RunOnScreen run) (rest : List UInt8) :
    readBlock (runBytes id fb run ++ rest) =
      some (runBlock id fb run, rest) := by
  rcases run with ⟨row, c0, c1⟩
  rcases hon with ⟨hrow, hle, hlt⟩
  simp only [rows, cols] at hrow hle hlt
  apply readBlock_blockBytes (n := (c1 - c0 + 1) * 128)
  · rw [Raster.length_readRect]
    simp only [tile]
    omega
  · omega
  · omega

theorem readStream_runs (id : DisplayId) (fb : Framebuffer)
    (runs : List (Nat × Nat × Nat))
    (hon : forall run, run ∈ runs -> RunOnScreen run) :
    readStream (runs.flatMap (runBytes id fb) ++ closing) =
      some (runs.map (runBlock id fb)) := by
  induction runs with
  | nil => exact readStream_closing
  | cons run rest ih =>
      have hread := readBlock_runBytes id fb (hon run List.mem_cons_self)
        (rest.flatMap (runBytes id fb) ++ closing)
      rw [List.flatMap_cons, List.append_assoc, readStream_of_block hread,
        ih (fun r hr => hon r (List.mem_cons_of_mem run hr))]
      rfl

theorem readStream_frameBytes (id : DisplayId) (fb : Framebuffer) :
    readStream (frameBytes id fb) =
      some (fb.dirty.runs.map (runBlock id fb)) :=
  readStream_runs id fb fb.dirty.runs fun _ hmem => runOnScreen_of_mem hmem

/-!
## Painting the blocks of a frame
-/

/-- The pixels of a run of tiles, by column and row. -/
def InRun (run : Nat × Nat × Nat) (px py : Nat) : Prop :=
  py / tile = run.1 ∧ run.2.1 ≤ px / tile ∧ px / tile ≤ run.2.2

instance (run : Nat × Nat × Nat) (px py : Nat) : Decidable (InRun run px py) :=
  inferInstanceAs (Decidable (_ ∧ _))

theorem rectOf_runRect {run : Nat × Nat × Nat} (hon : RunOnScreen run) :
    let (x, y, w, h) := runRect run
    (rectOf x y w h).x.toNat = x ∧ (rectOf x y w h).y.toNat = y ∧
      (rectOf x y w h).w.toNat = w ∧ (rectOf x y w h).h.toNat = h := by
  rcases run with ⟨row, c0, c1⟩
  rcases hon with ⟨hrow, hle, hlt⟩
  simp only [rows, cols] at hrow hle hlt
  simp only [runRect, rectOf, tile]
  refine ⟨toUInt16_toNat ?_, toUInt16_toNat ?_, toUInt16_toNat ?_,
    toUInt16_toNat ?_⟩ <;>
  omega

theorem toByte_inj {a b : DisplayId} (h : a.toByte = b.toByte) :
    a = b := by
  cases a <;> cases b <;>
    first
      | rfl
      | exact absurd h (by decide)

/-- Painting the block of a run copies its pixels and nothing else. -/
theorem paintBlock_runBlock (id : DisplayId) (fb : Framebuffer)
    {run : Nat × Nat × Nat} (hon : RunOnScreen run) (screens : Screens)
    (other : DisplayId) (px py : Nat) :
    paintBlock screens (runBlock id fb run) other px py =
      if other = id ∧ InRun run px py then fb.pixelAt px py
      else screens other px py := by
  have hrect := rectOf_runRect hon
  by_cases hid : other = id
  · subst hid
    rcases run with ⟨row, c0, c1⟩
    rcases hon with ⟨hrow, hle, hlt⟩
    simp only [runRect] at hrect
    have hin : Raster.InRect (c0 * tile) (row * tile) ((c1 - c0 + 1) * tile)
        tile px py <-> InRun (row, c0, c1) px py := by
      simp only [Raster.InRect, InRun, tile]
      simp only at hle
      omega
    have hpaint := Raster.paint_readRect (screens other) fb.pixelAt
      (c0 * tile) (row * tile) ((c1 - c0 + 1) * tile) tile px py
    rw [paintBlock_of_display screens rfl]
    simp only [runBlock, runRect, blockOf, hrect, hpaint, true_and]
    exact if_congr hin rfl rfl
  · have hbyte : other.toByte ≠ id.toByte := fun h => hid (toByte_inj h)
    rw [paintBlock_of_other screens hbyte, if_neg (fun h => hid h.left)]

/-- Painting blocks of runs copies the pixels of all the runs. -/
theorem paintBlocks_runs (id : DisplayId) (fb : Framebuffer)
    (runs : List (Nat × Nat × Nat))
    (hon : forall run, run ∈ runs -> RunOnScreen run) (screens : Screens)
    (other : DisplayId) (px py : Nat) :
    paintBlocks screens (runs.map (runBlock id fb)) other px py =
      if other = id ∧ exists run, run ∈ runs ∧ InRun run px py then
        fb.pixelAt px py
      else screens other px py := by
  induction runs generalizing screens with
  | nil => simp [paintBlocks]
  | cons run rest ih =>
      have hstep := ih (fun r hr => hon r (List.mem_cons_of_mem run hr))
        (paintBlock screens (runBlock id fb run))
      simp only [paintBlocks, List.map_cons, List.foldl_cons] at hstep ⊢
      rw [hstep, paintBlock_runBlock id fb (hon run List.mem_cons_self)]
      by_cases hrest : other = id ∧ exists r, r ∈ rest ∧ InRun r px py
      · rcases hrest with ⟨hid, r, hr, hin⟩
        rw [if_pos ⟨hid, r, hr, hin⟩,
          if_pos ⟨hid, r, List.mem_cons_of_mem run hr, hin⟩]
      · rw [if_neg hrest]
        by_cases hhead : other = id ∧ InRun run px py
        · rw [if_pos hhead,
            if_pos ⟨hhead.left, run, List.mem_cons_self, hhead.right⟩]
        · rw [if_neg hhead, if_neg]
          intro h
          rcases h with ⟨hid, r, hr, hin⟩
          rcases List.mem_cons.mp hr with heq | htail
          · exact hhead ⟨hid, heq ▸ hin⟩
          · exact hrest ⟨hid, r, htail, hin⟩

theorem exists_run_iff_marked (fb : Framebuffer) (px py : Nat) :
    (exists run, run ∈ fb.dirty.runs ∧ InRun run px py) <->
      fb.Marked px py := by
  unfold Framebuffer.Marked
  rw [DirtyTracker.isTileDirty_iff_exists_run]
  constructor
  · intro h
    rcases h with ⟨⟨r, a, b⟩, hmem, hrow, hcols⟩
    simp only at hrow hcols
    rw [hrow]
    exact ⟨a, b, hmem, hcols⟩
  · intro h
    rcases h with ⟨a, b, hmem, hcols⟩
    exact ⟨_, hmem, rfl, hcols⟩

/-- Reading a frame copies the marked pixels onto the display it is for. -/
theorem showTransfer_frameBytes (id : DisplayId) (fb : Framebuffer)
    (screens : Screens) :
    exists screens', showTransfer screens (frameBytes id fb) = some screens' ∧
      forall other px py, screens' other px py =
        if other = id ∧ fb.Marked px py then fb.pixelAt px py
        else screens other px py := by
  refine ⟨paintBlocks screens (fb.dirty.runs.map (runBlock id fb)), ?_, ?_⟩
  · rw [showTransfer, readStream_frameBytes]
    rfl
  · intro other px py
    rw [paintBlocks_runs id fb _ (fun _ hmem => runOnScreen_of_mem hmem)]
    exact if_congr (and_congr_right fun _ => exists_run_iff_marked fb px py)
      rfl rfl

theorem pairs_runBlock (id : DisplayId) (fb : Framebuffer)
    {run : Nat × Nat × Nat} (hon : RunOnScreen run) :
    2 * (runBlock id fb run).pairs =
      (runBlock id fb run).rect.w.toNat * (runBlock id fb run).rect.h.toNat := by
  have hrect := rectOf_runRect hon
  rcases run with ⟨row, c0, c1⟩
  simp only [runRect] at hrect
  simp only [runBlock, blockOf, runRect, Raster.length_readRect, hrect, tile]
  omega

/--
The reference reader consumes an encoded frame exactly, every block fills its
rectangle, and the frame copies the dirty tiles to its own display only; the
encoder keeps the pixels and leaves no tile dirty.
-/
theorem encodeFrame_copies_dirty_tiles (id : DisplayId) (fb : Framebuffer)
    (screens : Screens) :
    exists bytes fb' blocks,
      encodeFrame id fb = some (bytes, fb') ∧
      readStream bytes = some blocks ∧
      (forall b, b ∈ blocks ->
        2 * b.pairs = b.rect.w.toNat * b.rect.h.toNat) ∧
      (forall x y, Framebuffer.OnScreen x y ->
        paintBlocks screens blocks id x y =
          if fb.dirty.isTileDirty (x / tile) (y / tile) then fb.pixelAt x y
          else screens id x y) ∧
      (forall other, other ≠ id ->
        paintBlocks screens blocks other = screens other) ∧
      fb'.pixels = fb.pixels ∧
      (forall c r, fb'.dirty.isTileDirty c r = false) := by
  have hclear := encodeFrame_clears (encodeFrame_eq id fb)
  have hpaint := paintBlocks_runs id fb fb.dirty.runs
    (fun _ hmem => runOnScreen_of_mem hmem) screens
  refine ⟨_, _, _, encodeFrame_eq id fb, readStream_frameBytes id fb, ?_, ?_,
    ?_, hclear.left, hclear.right⟩
  · intro b hb
    rcases List.mem_map.mp hb with ⟨run, hmem, hrun⟩
    rw [← hrun]
    exact pairs_runBlock id fb (runOnScreen_of_mem hmem)
  · intro x y _
    rw [hpaint id x y]
    apply if_congr _ rfl rfl
    rw [exists_run_iff_marked]
    simp [Framebuffer.Marked]
  · intro other hne
    funext x y
    rw [hpaint other x y, if_neg (fun h => hne h.left)]

end Display
end OpenMk3
