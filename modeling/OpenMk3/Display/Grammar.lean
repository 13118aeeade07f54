import OpenMk3.Display.Reader

/-!
# The documented transfer grammar

The wire format documented for a display update is one header followed by
commands that fill its rectangle, a flush and an end command.  A solid frame is
such a transfer.  An encoded framebuffer repeats the header for every run of
tiles, so it is one exactly when the dirty tiles form a single run.
-/

namespace OpenMk3
namespace Display

open Library Proto

/-- A sequence of blit and repeat commands and the number of pairs it paints. -/
inductive Commands : List UInt8 -> Nat -> Prop where
  | nil : Commands [] 0
  | blit {a b c d0 d1 d2 d3 : UInt8} {payload rest : List UInt8} {pairs : Nat} :
      payload.length = 4 * ofBeBytes24 a b c ->
      Commands rest pairs ->
        Commands ([0x00, a, b, c, d0, d1, d2, d3] ++ payload ++ rest)
          (ofBeBytes24 a b c + pairs)
  | repeated {a b c p0 p1 p2 p3 : UInt8} {rest : List UInt8} {pairs : Nat} :
      Commands rest pairs ->
        Commands ([0x01, a, b, c, p0, p1, p2, p3] ++ rest)
          (ofBeBytes24 a b c + pairs)

/-- One sentence of the transfer grammar. -/
def IsTransfer (bytes : List UInt8) : Prop :=
  exists display rect commands pairs,
    Commands commands pairs ∧
    pairs = rect.w.toNat * rect.h.toNat / 2 ∧
    bytes = headerBytes display rect ++ commands ++ flushCmd ++ endCmd

/-!
## Commands of one block
-/

theorem commands_repeatCmd (count : UInt32) (word : UInt16)
    (hcount : count.toNat < 2 ^ 24) :
    Commands (repeatCmd count (pairOf word)) count.toNat := by
  rcases ofBeBytes24_toBeBytes24 count hcount with ⟨a, b, c, hbytes, hn⟩
  have h : Commands ([0x01, a, b, c, hiByte word, loByte word, hiByte word,
      loByte word] ++ []) (ofBeBytes24 a b c + 0) :=
    Commands.repeated Commands.nil
  rw [hn] at h
  simpa [repeatCmd, pairOf, hbytes] using h

theorem commands_blitCmd (count : UInt32) {payload : List UInt8}
    (hcount : count.toNat < 2 ^ 24)
    (hlen : payload.length = 4 * count.toNat) :
    Commands (blitCmd count ++ payload) count.toNat := by
  rcases ofBeBytes24_toBeBytes24 count hcount with ⟨a, b, c, hbytes, hn⟩
  have hpayload : payload.length = 4 * ofBeBytes24 a b c := by
    rw [hn]
    exact hlen
  have h : Commands ([0x00, a, b, c, 0, 0, 0, 0] ++ payload ++ [])
      (ofBeBytes24 a b c + 0) :=
    Commands.blit hpayload Commands.nil
  rw [hn] at h
  simpa [blitCmd, hbytes] using h

/-- What the commands leave before the closing never starts a header. -/
theorem commands_closing_ne_header {commands : List UInt8} {pairs : Nat}
    (h : Commands commands pairs) (tail : List UInt8) :
    commands ++ closing ≠ 0x84 :: tail := by
  intro heq
  cases h with
  | nil => simp [closing, flushCmd] at heq
  | blit _ _ => simp at heq
  | repeated _ => simp at heq

theorem commands_after_repeat {commands : List UInt8} {pairs : Nat}
    (h : Commands commands pairs) {a b c p0 p1 p2 p3 : UInt8}
    {tail : List UInt8}
    (heq : commands ++ closing = [0x01, a, b, c, p0, p1, p2, p3] ++ tail) :
    exists rest n, Commands rest n ∧ rest ++ closing = tail := by
  cases h with
  | nil => simp [closing, flushCmd] at heq
  | blit _ _ => simp at heq
  | repeated hrest =>
      simp only [List.cons_append, List.nil_append, List.cons.injEq] at heq
      exact ⟨_, _, hrest, heq.right.right.right.right.right.right.right.right⟩

theorem commands_after_blit {commands : List UInt8} {pairs : Nat}
    (h : Commands commands pairs) {a b c d0 d1 d2 d3 : UInt8}
    {payload tail : List UInt8}
    (hlen : payload.length = 4 * ofBeBytes24 a b c)
    (heq : commands ++ closing =
      [0x00, a, b, c, d0, d1, d2, d3] ++ payload ++ tail) :
    exists rest n, Commands rest n ∧ rest ++ closing = tail := by
  cases h with
  | nil => simp [closing, flushCmd] at heq
  | blit hpay hrest =>
      simp only [List.cons_append, List.nil_append, List.cons.injEq,
        List.append_assoc, true_and] at heq
      rcases heq with ⟨ha, hb, hc, _, _, _, _, hbody⟩
      rw [ha, hb, hc] at hpay
      have hsplit := List.append_inj hbody (by rw [hpay, hlen])
      exact ⟨_, _, hrest, hsplit.right⟩
  | repeated _ => simp at heq

/-!
## The body of a block in the grammar
-/

section Body

variable {words : List UInt16} {n : Nat}

theorem commands_bodyBytes (hn : words.length = 2 * n) (hpos : 0 < n)
    (hsize : n < 2 ^ 24) : Commands (bodyBytes words) n := by
  have hword : n.toUInt32.toNat = n := toUInt32_toNat (by omega)
  rcases bodyBytes_cases hn hpos with ⟨word, _, hbody⟩ | hbody
  · have h := commands_repeatCmd n.toUInt32 word (by omega)
    rw [hbody]
    rw [hword] at h
    exact h
  · have hlen : (words.flatMap toBeBytes).length = 4 * n.toUInt32.toNat := by
      rw [length_flatMap_toBeBytes]
      omega
    have h := commands_blitCmd n.toUInt32 (by omega) hlen
    rw [hbody]
    rw [hword] at h
    exact h

theorem commands_after_body (hn : words.length = 2 * n) (hpos : 0 < n)
    (hsize : n < 2 ^ 24) {commands tail : List UInt8} {pairs : Nat}
    (h : Commands commands pairs)
    (heq : commands ++ closing = bodyBytes words ++ tail) :
    exists rest m, Commands rest m ∧ rest ++ closing = tail := by
  have hword : n.toUInt32.toNat = n := toUInt32_toNat (by omega)
  rcases ofBeBytes24_toBeBytes24 n.toUInt32 (by omega) with
    ⟨a, b, c, hbytes, hcount⟩
  rcases bodyBytes_cases hn hpos with ⟨word, _, hbody⟩ | hbody
  · rw [hbody, repeatCmd, hbytes] at heq
    exact commands_after_repeat h heq
  · rw [hbody, blitCmd, hbytes] at heq
    refine commands_after_blit h ?_ heq
    rw [length_flatMap_toBeBytes]
    omega

end Body

/-!
## Transfers and runs
-/

/-- The dirty tiles are exactly the tiles of one interval of one row. -/
def OneRun (d : DirtyTracker) : Prop :=
  exists r c0 c1, c0 ≤ c1 ∧
    forall c row, d.isTileDirty c row = true <-> row = r ∧ c0 ≤ c ∧ c ≤ c1

private theorem length_readRun (fb : Framebuffer) (run : Nat × Nat × Nat) :
    let (x, y, w, h) := runRect run
    (Raster.readRect fb.pixelAt x y w h).length =
      2 * ((run.2.2 - run.2.1 + 1) * 128) := by
  simp only [runRect, Raster.length_readRect, tile]
  omega

theorem commands_runBytes (id : DisplayId) (fb : Framebuffer)
    {run : Nat × Nat × Nat} (hon : RunOnScreen run) :
    exists rect commands, Commands commands (rect.w.toNat * rect.h.toNat / 2) ∧
      runBytes id fb run = headerBytes id rect ++ commands := by
  have hrect := rectOf_runRect hon
  have hlen := length_readRun fb run
  rcases run with ⟨row, c0, c1⟩
  rcases hon with ⟨hrow, hle, hlt⟩
  simp only [rows, cols] at hrow hle hlt
  simp only [runRect] at hrect hlen
  refine ⟨_, _, ?_, rfl⟩
  have hbody := commands_bodyBytes hlen (by omega) (by omega)
  have hpairs : (c1 - c0 + 1) * tile * tile / 2 = (c1 - c0 + 1) * 128 := by
    simp only [tile]
    omega
  rw [hrect.right.right.left, hrect.right.right.right, hpairs]
  exact hbody

/-- A block followed by another header never continues as a transfer. -/
theorem not_isTransfer_of_second_header (id : DisplayId) (fb : Framebuffer)
    {run : Nat × Nat × Nat} (hon : RunOnScreen run) (tail : List UInt8) :
    ¬ IsTransfer (runBytes id fb run ++ 0x84 :: tail) := by
  intro h
  rcases h with ⟨display, rect, commands, pairs, hcommands, _, hbytes⟩
  have hlen := length_readRun fb run
  rcases run with ⟨row, c0, c1⟩
  rcases hon with ⟨hrow, hle, hlt⟩
  simp only [rows, cols] at hrow hle hlt
  simp only [runRect] at hlen
  simp only [runBytes, runRect, blockBytes, List.append_assoc] at hbytes
  have hsplit := List.append_inj hbytes rfl
  rcases commands_after_body hlen (by omega) (by omega) hcommands
      hsplit.right.symm with ⟨rest, m, hrest, heq⟩
  exact commands_closing_ne_header hrest tail heq

theorem runs_eq_singleton_of_oneRun {d : DirtyTracker} (h : OneRun d) :
    exists run, d.runs = [run] := by
  rcases h with ⟨r, c0, c1, hle, htiles⟩
  have honly : forall run, run ∈ d.runs -> run = (r, c0, c1) := by
    intro run hmem
    rcases run with ⟨row, a, b⟩
    have hmax := (DirtyTracker.mem_runs_iff.mp hmem).right
    have ha := (htiles a row).mp (hmax.holds a (Nat.le_refl a) hmax.le)
    have hb := (htiles b row).mp (hmax.holds b hmax.le (Nat.le_refl b))
    have hleft : ¬ c0 < a := by
      intro hlt
      rcases hmax.left with hzero | hfalse
      · omega
      · rw [(htiles (a - 1) row).mpr ⟨ha.left, by omega, by omega⟩] at hfalse
        cases hfalse
    have hright : ¬ b < c1 := by
      intro hlt
      have hdirty := (htiles (b + 1) row).mpr ⟨ha.left, by omega, by omega⟩
      have hfalse := hmax.right
        (DirtyTracker.in_range_of_isTileDirty hdirty).left
      rw [hdirty] at hfalse
      cases hfalse
    have hab : a = c0 ∧ b = c1 := by omega
    rw [ha.left, hab.left, hab.right]
  have hdirty := (htiles c0 r).mpr ⟨rfl, Nat.le_refl c0, hle⟩
  rcases DirtyTracker.isTileDirty_iff_exists_run.mp hdirty with ⟨a, b, hmem, _⟩
  have hsorted := DirtyTracker.pairwise_runs d
  cases hruns : d.runs with
  | nil =>
      rw [hruns] at hmem
      cases hmem
  | cons run rest =>
      cases rest with
      | nil => exact ⟨run, rfl⟩
      | cons run' rest =>
          rw [hruns] at honly hsorted
          have h1 := honly run List.mem_cons_self
          have h2 := honly run' (List.mem_cons_of_mem run List.mem_cons_self)
          have hlt := (List.pairwise_cons.mp hsorted).left run'
            List.mem_cons_self
          rw [h1, h2] at hlt
          simp only at hlt
          omega

theorem oneRun_of_runs_eq_singleton {d : DirtyTracker}
    {run : Nat × Nat × Nat} (h : d.runs = [run]) : OneRun d := by
  have hmem : run ∈ d.runs := by
    rw [h]
    exact List.mem_singleton.mpr rfl
  have hon := runOnScreen_of_mem hmem
  refine ⟨run.1, run.2.1, run.2.2, hon.le, ?_⟩
  intro c row
  rw [DirtyTracker.isTileDirty_iff_exists_run, h]
  constructor
  · intro hrun
    rcases hrun with ⟨a, b, hmem, hcols⟩
    rw [List.mem_singleton] at hmem
    rw [← hmem]
    exact ⟨rfl, hcols⟩
  · intro hrun
    rw [hrun.left]
    exact ⟨run.2.1, run.2.2, List.mem_singleton.mpr rfl, hrun.right⟩

/-- An encoded frame is one transfer exactly for a single run of tiles. -/
theorem isTransfer_frameBytes_iff (id : DisplayId) (fb : Framebuffer) :
    IsTransfer (frameBytes id fb) <-> OneRun fb.dirty := by
  have hmem := fun run (h : run ∈ fb.dirty.runs) => runOnScreen_of_mem h
  constructor
  · intro h
    cases hruns : fb.dirty.runs with
    | nil =>
        rcases h with ⟨display, rect, commands, pairs, _, _, hbytes⟩
        rw [frameBytes, hruns] at hbytes
        simp [closing, flushCmd, headerBytes] at hbytes
    | cons run rest =>
        cases rest with
        | nil => exact oneRun_of_runs_eq_singleton hruns
        | cons run' rest =>
            rw [hruns] at hmem
            have hbytes : frameBytes id fb = runBytes id fb run ++
                0x84 :: ((runBytes id fb run').tail ++
                  rest.flatMap (runBytes id fb) ++ closing) := by
              simp only [frameBytes, hruns, List.flatMap_cons,
                List.append_assoc]
              rfl
            rw [hbytes] at h
            exact absurd h (not_isTransfer_of_second_header id fb
              (hmem run List.mem_cons_self) _)
  · intro h
    rcases runs_eq_singleton_of_oneRun h with ⟨run, hruns⟩
    rcases commands_runBytes id fb (hmem run (by rw [hruns]; simp)) with
      ⟨rect, commands, hcommands, hbytes⟩
    refine ⟨id, rect, commands, _, hcommands, rfl, ?_⟩
    rw [frameBytes, hruns, List.flatMap_cons, List.flatMap_nil, hbytes]
    simp [closing]

theorem isTransfer_solidFrameBytes (display : DisplayId) (color : Rgb) :
    IsTransfer (solidFrameBytes display color) := by
  have h := commands_repeatCmd (DisplayId.pixelCount / 2).toUInt32
    color.toRgb565 (by decide)
  exact ⟨display, Rect.full, _, _, h, by decide, rfl⟩

/--
A solid frame is always one transfer of the documented grammar, and an encoded
framebuffer is one exactly when its dirty tiles form a single run.
-/
theorem transfers_of_grammar (id : DisplayId) (color : Rgb)
    (fb : Framebuffer) :
    (forall out : List UInt8, solidFrameLen ≤ out.length ->
      exists n out', encodeSolidFrame id color out = (.ok n, out') ∧
        IsTransfer (out'.take n)) ∧
    exists bytes fb', encodeFrame id fb = some (bytes, fb') ∧
      (IsTransfer bytes <-> OneRun fb.dirty) := by
  constructor
  · intro out hlen
    refine ⟨_, _, encodeSolidFrame_ok id color hlen, ?_⟩
    rw [List.take_left' (length_solidFrameBytes id color)]
    exact isTransfer_solidFrameBytes id color
  · exact ⟨_, _, encodeFrame_eq id fb, isTransfer_frameBytes_iff id fb⟩

/-- A cleared framebuffer is encoded with one header for each row of tiles. -/
theorem clear_not_transfer :
    exists bytes fb', encodeFrame .left (Framebuffer.new.clear Rgb.black) =
        some (bytes, fb') ∧
      (Framebuffer.new.clear Rgb.black).dirty.isTileDirty 0 0 = true ∧
      ¬ IsTransfer bytes := by
  have hfull := DirtyTracker.isTileDirty_markFull Framebuffer.new.dirty
  refine ⟨_, _, encodeFrame_eq _ _, (hfull 0 0).mpr (by decide), ?_⟩
  rw [isTransfer_frameBytes_iff]
  intro hone
  rcases hone with ⟨r, c0, c1, _, htiles⟩
  have h0 := (htiles 0 0).mp ((hfull 0 0).mpr (by decide))
  have h1 := (htiles 0 1).mp ((hfull 0 1).mpr (by decide))
  omega

end Display
end OpenMk3
