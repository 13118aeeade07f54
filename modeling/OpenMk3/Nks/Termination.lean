import OpenMk3.Nks.Framing

/-!
# Termination of the RIFF reader

`read_metadata` with every cast, sum and allocation as one that may fail, and
with a number of rounds after which its loop gives up.  No file makes one of
them fail, and one round for every eight bytes and one more are enough.
-/

namespace OpenMk3
namespace Nks

open Library Fallible

variable {ε : Type}

/-- The bytes of a file; a position in a file is an `off_t`. -/
structure RegularFile where
  content : List UInt8
  sized : content.length < 2 ^ 63

/-!
## The reader with its checks
-/

/-- A `u64`; nothing when it overflows. -/
def word64? (n : Nat) : Option Nat := if n < 2 ^ 64 then some n else none

/-- `as i64`; nothing when the sign bit would be set. -/
def signed64? (n : Nat) : Option Nat := if n < 2 ^ 63 then some n else none

/-- The offset of a seek from the current position on. -/
def checkedSeek (len : Nat) (f : File) : ExceptT (NksError ε) Option File := do
  let offset <- expect (signed64? len)
  pure (f.seekBy offset)

/-- `vec![0u8; n]` takes no more than `isize::MAX` bytes. -/
def checkedVersioned (payloadLen : Nat) (f : File) :
    ExceptT (NksError ε) Option (List UInt8 × File) := do
  let (_, f) <- settled (orEof (readU32Le f))
  let capacity <- expect (signed64? payloadLen)
  settled (orEof (f.readExact capacity))

def checkedChunk (dec : MsgPack ε) (id : List UInt8) (len : Nat)
    (st : RiffState) : ExceptT (NksError ε) Option RiffState := do
  let dataStart <- expect (word64? st.file.pos)
  let payloadLen := len - 4
  if id = idNisi then
    let (buf, f) <- checkedVersioned payloadLen st.file
    let summary <- settled ((dec.summary buf).mapError NksError.msgPack)
    pure { st with file := f, summary := some summary }
  else if id = idPlid then
    let (buf, f) <- checkedVersioned payloadLen st.file
    let plugin <- settled ((dec.plugin buf).mapError NksError.msgPack)
    pure { st with file := f, plugin := some plugin }
  else if id = idNica then
    let (buf, f) <- checkedVersioned payloadLen st.file
    pure { st with file := f, controller := some { raw := buf } }
  else if id = idPchk then
    let offset <- expect (word64? (dataStart + 4))
    let f <- checkedSeek len st.file
    pure { st with file := f, pchk := some (offset, payloadLen) }
  else
    let f <- checkedSeek len st.file
    pure { st with file := f }

def checkedStep (dec : MsgPack ε) (st : RiffState) :
    ExceptT (NksError ε) Option (Option RiffState) :=
  match read4 st.file with
  | none => pure none
  | some (id, f) => do
      let (len, f) <- settled (orEof (readU32Le f))
      let st <- checkedChunk dec id len { st with file := f }
      pure (some (skipPad len st))

/-- The loop, for some rounds at most. -/
def checkedLoop (dec : MsgPack ε) :
    Nat -> RiffState -> ExceptT (NksError ε) Option RiffState
  | 0, _ => stopped
  | rounds + 1, st => do
      match <- checkedStep dec st with
      | none => pure st
      | some st' => checkedLoop dec rounds st'

def checkedMetadata (dec : MsgPack ε) (rounds : Nat) (path : Path)
    (content : List UInt8) : ExceptT (NksError ε) Option NksFile := do
  let f <- settled (readHeader (Cursor.start content))
  let st <- checkedLoop dec rounds { file := f }
  settled (assemble path st)

/-!
## No check fails
-/

theorem checkedSeek_eq {len : Nat} (hlen : len < 2 ^ 32) (f : File) :
    (checkedSeek len f : ExceptT (NksError ε) Option File) =
      pure (f.seekBy len) := by
  have hoffset : signed64? len = some len := if_pos (by omega)
  rw [checkedSeek, hoffset]
  rfl

theorem checkedVersioned_eq {n : Nat} (hn : n < 2 ^ 32) (f : File) :
    (checkedVersioned n f : ExceptT (NksError ε) Option (List UInt8 × File)) =
      settled (readVersioned n f) := by
  have hcapacity : signed64? n = some n := if_pos (by omega)
  unfold checkedVersioned readVersioned
  refine settled_bind ?_
  rintro ⟨version, f'⟩ _
  rw [hcapacity]
  rfl

theorem checkedChunk_eq (dec : MsgPack ε) (id : List UInt8) {len : Nat}
    (hlen : len < 2 ^ 32) (st : RiffState) (hpos : st.file.pos + 4 < 2 ^ 64) :
    checkedChunk dec id len st = settled (readChunk dec id len st) := by
  have hstart : word64? st.file.pos = some st.file.pos := if_pos (by omega)
  have hoffset : word64? (st.file.pos + 4) = some (st.file.pos + 4) := if_pos hpos
  have hpayload : len - 4 < 2 ^ 32 := by omega
  unfold checkedChunk readChunk
  simp only [hstart, expect_some, pure_bind, checkedVersioned_eq hpayload,
    hoffset, checkedSeek_eq hlen]
  split_ifs
  · refine settled_bind fun read _ => ?_
    exact settled_bind fun summary _ => rfl
  · refine settled_bind fun read _ => ?_
    exact settled_bind fun plugin _ => rfl
  · exact settled_bind fun read _ => rfl
  · rfl
  · rfl

theorem leNat_take_lt (bytes : List UInt8) : leNat (bytes.take 4) < 2 ^ 32 :=
  Nat.lt_of_lt_of_le (leNat_lt _)
    (Nat.pow_le_pow_right (by decide) (List.length_take_le 4 bytes))

theorem readU32Le_eq_some {f f' : File} {n : Nat}
    (h : readU32Le f = some (n, f')) : n < 2 ^ 32 ∧ f' = f.seekBy 4 := by
  rw [readU32Le_eq] at h
  split at h
  · cases h
    exact ⟨leNat_take_lt f.rest, rfl⟩
  · cases h

/-- Where a loop head may stand: at most one declared length past the end. -/
def Placed (file : RegularFile) (f : File) : Prop :=
  f.content = file.content ∧ f.pos ≤ file.content.length + 2 ^ 32

theorem Placed.next {dec : MsgPack ε} {file : RegularFile} {st st' : RiffState}
    (h : Placed file st.file) (hstep : chunkStep dec st = .ok (some st')) :
    Placed file st'.file ∧
      st'.file.rest.length + 8 ≤ st.file.rest.length := by
  rcases chunkStep_some hstep with ⟨h8, hfile, _⟩
  have hlen : headLen st.file < 2 ^ 32 := leNat_take_lt _
  have harm : armLength (headId st.file) (headLen st.file) ≤
      max (headLen st.file) 4 := by
    unfold armLength
    split
    · exact Nat.le_refl _
    · exact Nat.le_max_left _ _
  have hrest : st.file.rest.length = file.content.length - st.file.pos := by
    rw [Cursor.rest, List.length_drop, h.left]
  rw [hfile]
  refine ⟨⟨?_, ?_⟩, ?_⟩
  · rw [Cursor.seekBy_content, h.left]
  · rw [Cursor.seekBy_pos]
    omega
  · rw [Cursor.rest_seekBy, List.length_drop]
    omega

theorem checkedStep_eq (dec : MsgPack ε) {file : RegularFile} {st : RiffState}
    (h : Placed file st.file) : checkedStep dec st = settled (chunkStep dec st) := by
  have hsized := file.sized
  have hplaced := h.right
  unfold checkedStep chunkStep
  cases hread : read4 st.file with
  | none =>
      rfl
  | some head =>
      rcases Cursor.readExact_eq_some_iff.mp hread with ⟨_, _, hf⟩
      refine settled_bind ?_
      rintro ⟨len, f⟩ hlen
      rcases readU32Le_eq_some (orEof_eq_ok_iff.mp hlen) with ⟨hlt, rfl⟩
      have hpos : (head.2.seekBy 4).pos + 4 < 2 ^ 64 := by
        rw [hf, Cursor.seekBy_pos, Cursor.seekBy_pos]
        omega
      have hchunk := checkedChunk_eq dec head.1 hlt
        { st with file := head.2.seekBy 4 } hpos
      show (checkedChunk dec head.1 len { st with file := head.2.seekBy 4 } >>= _) = _
      rw [hchunk]
      exact settled_bind fun st' _ => rfl

/-- A round moves over eight bytes that were still there. -/
theorem checkedLoop_eq (dec : MsgPack ε) {file : RegularFile} (rounds : Nat)
    (st : RiffState) (h : Placed file st.file)
    (hrounds : st.file.rest.length / 8 < rounds) :
    checkedLoop dec rounds st = settled (chunkLoop dec st) := by
  induction rounds generalizing st with
  | zero =>
      exact absurd hrounds (Nat.not_lt_zero _)
  | succ rounds ih =>
      rw [checkedLoop, checkedStep_eq dec h]
      cases hstep : chunkStep dec st with
      | error e =>
          rw [chunkLoop_of_error hstep]
          rfl
      | ok next =>
          cases next with
          | none =>
              rw [chunkLoop_of_break hstep]
              rfl
          | some st' =>
              rcases h.next hstep with ⟨hplaced, hshorter⟩
              rw [chunkLoop_of_step hstep]
              exact ih st' hplaced (by omega)

theorem placed_of_readHeader {file : RegularFile} {f : File}
    (h : (readHeader (Cursor.start file.content) :
      Except (NksError ε) File) = .ok f) : Placed file f := by
  rw [readHeader_ok h]
  refine ⟨rfl, ?_⟩
  show 12 ≤ file.content.length + 2 ^ 32
  omega

theorem placed_of_loopHead {dec : MsgPack ε} {file : RegularFile}
    {st : RiffState} (h : LoopHead dec file.content st) : Placed file st.file := by
  rcases h with ⟨f, hheader, hreach⟩
  induction hreach with
  | start =>
      exact placed_of_readHeader hheader
  | next _ hstep ih =>
      exact (ih.next hstep).left

/-- Reading the metadata of a file ends after one round of its loop for every
eight bytes and one more at most, meets none of its failing operations, and
moves no further past the end than one declared length. -/
theorem readMetadata_terminates (dec : MsgPack ε) (path : Path)
    (file : RegularFile) :
    checkedMetadata dec (file.content.length / 8 + 1) path file.content =
        settled (readMetadata dec (fun _ => some file.content) path) ∧
      forall st, LoopHead dec file.content st ->
        st.file.pos ≤ file.content.length + 2 ^ 32 := by
  refine ⟨?_, fun st h => (placed_of_loopHead h).right⟩
  unfold checkedMetadata readMetadata
  refine settled_bind ?_
  intro f hheader
  have hrounds : f.rest.length / 8 < file.content.length / 8 + 1 := by
    rw [readHeader_ok hheader, Cursor.rest_seekBy, List.length_drop]
    show (file.content.length - 12) / 8 < _
    omega
  have hloop := checkedLoop_eq dec _ { file := f }
    (placed_of_readHeader hheader) hrounds
  rw [hloop]
  exact settled_bind fun st _ => rfl

end Nks
end OpenMk3
