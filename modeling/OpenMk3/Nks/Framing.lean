import OpenMk3.Library.Search
import OpenMk3.Nks.Riff

/-!
# Chunk framing

Where the loop heads of `read_metadata` lie, compared with the heads that the
declared lengths give, and what the loop knows about the plugin state it has
skipped.
-/

namespace OpenMk3
namespace Nks

open Library

variable {ε : Type}

/-!
## Loop heads
-/

/-- The loop heads reached from a state of the loop. -/
inductive Reaches (dec : MsgPack ε) (start : RiffState) : RiffState -> Prop where
  | start : Reaches dec start start
  | next {st st' : RiffState} :
      Reaches dec start st ->
      chunkStep dec st = .ok (some st') ->
      Reaches dec start st'

/-- The loop heads of the reader on a file. -/
def LoopHead (dec : MsgPack ε) (content : List UInt8) (st : RiffState) : Prop :=
  exists f, (readHeader (Cursor.start content) : Except (NksError ε) File) =
    .ok f ∧ Reaches dec { file := f } st

/-- The position after the chunk at a head, by its declared length. -/
def declaredEnd (f : File) : Nat :=
  f.pos + 8 + headLen f + headLen f % 2

/-- A chunk with room for the version prefix that its arm reads. -/
def HasPrefix (f : File) : Prop :=
  Not (Versioned (headId f)) ∨ 4 <= headLen f

/-- The chunk heads of a content when every chunk has its declared length. -/
inductive DeclaredHead (content : List UInt8) : Nat -> Prop where
  | first : DeclaredHead content 12
  | next {pos : Nat} :
      DeclaredHead content pos ->
      DeclaredHead content (declaredEnd { content := content, pos := pos })

theorem armLength_eq_iff {id : List UInt8} {len : Nat} :
    armLength id len = len <-> Not (Versioned id) ∨ 4 <= len := by
  unfold armLength
  split
  · rename_i hv
    simp only [hv, not_true_eq_false, false_or]
    omega
  · rename_i hv
    simp [hv]

theorem chunkStep_framed_iff {dec : MsgPack ε} {st st' : RiffState}
    (h : chunkStep dec st = .ok (some st')) :
    st'.file.pos = declaredEnd st.file <-> HasPrefix st.file := by
  rcases chunkStep_some h with ⟨_, hfile, _⟩
  unfold HasPrefix declaredEnd
  rw [hfile, Cursor.seekBy_pos, <- armLength_eq_iff]
  omega

theorem Reaches.content {dec : MsgPack ε} {st st' : RiffState}
    (h : Reaches dec st st') : st'.file.content = st.file.content := by
  induction h with
  | start =>
      rfl
  | next _ hstep ih =>
      rcases chunkStep_some hstep with ⟨_, hfile, _⟩
      rw [hfile, Cursor.seekBy_content, ih]

theorem Reaches.chunkLoop_eq {dec : MsgPack ε} {st st' : RiffState}
    (h : Reaches dec st st') : chunkLoop dec st = chunkLoop dec st' := by
  induction h with
  | start =>
      rfl
  | next _ hstep ih =>
      rw [ih, chunkLoop_of_step hstep]

theorem scan_of_loopHead {dec : MsgPack ε} {files : Files} {path : Path}
    {content : List UInt8} {st : RiffState} (hcontent : files path = some content)
    (hhead : LoopHead dec content st)
    (hbreak : chunkStep dec st = .ok none) :
    NksFile.scan dec files path = assemble path st := by
  rcases hhead with ⟨f, hf, hreach⟩
  unfold NksFile.scan readMetadata
  rw [hcontent]
  dsimp only
  rw [hf, Fallible.ok_bind, hreach.chunkLoop_eq, chunkLoop_of_break hbreak,
    Fallible.ok_bind]

/-- When no chunk is short, the loop visits declared heads only. -/
theorem Reaches.declaredHead {dec : MsgPack ε} {content : List UInt8}
    {start : RiffState}
    (hstart : start.file = { content := content, pos := 12 })
    (hok : forall st st', Reaches dec start st ->
      chunkStep dec st = .ok (some st') -> HasPrefix st.file)
    {st : RiffState} (h : Reaches dec start st) :
    DeclaredHead content st.file.pos := by
  induction h with
  | start =>
      rw [hstart]
      exact DeclaredHead.first
  | @next st st' hreach hstep ih =>
      have hcontent : st.file.content = content := by
        rw [hreach.content, hstart]
      have hfile : st.file = { content := content, pos := st.file.pos } := by
        rw [<- hcontent]
      have hpos := (chunkStep_framed_iff hstep).mpr (hok st st' hreach hstep)
      rw [hpos, hfile]
      exact DeclaredHead.next ih

/-- An iteration ends at the declared end of its chunk exactly when the chunk
has room for the prefix its arm reads; a file of such chunks is walked head by
declared head. -/
theorem chunk_framing (dec : MsgPack ε) (content : List UInt8) :
    (forall st st', LoopHead dec content st ->
      chunkStep dec st = .ok (some st') ->
        (st'.file.pos = declaredEnd st.file <-> HasPrefix st.file)) ∧
      ((forall st st', LoopHead dec content st ->
        chunkStep dec st = .ok (some st') -> HasPrefix st.file) ->
          forall st, LoopHead dec content st ->
            DeclaredHead content st.file.pos) := by
  constructor
  · intro st st' _ hstep
    exact chunkStep_framed_iff hstep
  · intro hok st hhead
    rcases hhead with ⟨f, hf, hreach⟩
    apply Reaches.declaredHead (readHeader_ok hf) ?_ hreach
    intro mid mid' hmid hstep
    exact hok mid mid' ⟨f, hf, hmid⟩ hstep

/-- A controller chunk of declared length 0, then a plugin-state chunk. -/
def shortControllerPreset : List UInt8 :=
  magicRiff ++ [24, 0, 0, 0] ++ magicNiks ++
    idNica ++ [0, 0, 0, 0] ++
    idPchk ++ [4, 0, 0, 0] ++ [1, 0, 0, 0]

/-- The short chunk takes the next chunk's id for its version prefix. -/
theorem chunk_framing_fails :
    Not (forall (dec : MsgPack Unit) (content : List UInt8)
      (st st' : RiffState), LoopHead dec content st ->
        chunkStep dec st = .ok (some st') ->
          st'.file.pos = declaredEnd st.file) := by
  intro hall
  have hhead : LoopHead emptyMapDecoder shortControllerPreset
      { file := { content := shortControllerPreset, pos := 12 } } :=
    ⟨_, rfl, Reaches.start⟩
  have hstep : chunkStep emptyMapDecoder
      { file := { content := shortControllerPreset, pos := 12 } } =
        .ok (some
          { file := { content := shortControllerPreset, pos := 24 }
            controller := some { raw := [] } }) := rfl
  exact absurd (hall _ _ _ _ hhead hstep) (by decide)

/-!
## Skipped plugin state
-/

/-- The header of a chunk: its id, declared length and data position. -/
structure ChunkHead where
  id : List UInt8
  len : Nat
  dataStart : Nat
deriving DecidableEq, Repr

/-- The chunk headers a reader meets from a head on. -/
def chunkHeads (f : File) : List ChunkHead :=
  if 8 <= f.rest.length then
    { id := headId f, len := headLen f, dataStart := f.pos + 8 } ::
      chunkHeads (f.seekBy (8 + armLength (headId f) (headLen f) +
        headLen f % 2))
  else []
termination_by f.rest.length
decreasing_by
  simp only [Cursor.rest_seekBy, List.length_drop]
  omega

/-- The last plugin-state header met from a head on. -/
def lastState (f : File) : Option ChunkHead :=
  (chunkHeads f).findRev? fun h => h.id = idPchk

/-- The last plugin-state chunk of a content is wholly there, its version
prefix included. -/
def StatePresent (content : List UInt8) : Prop :=
  forall h, lastState { content := content, pos := 12 } = some h ->
    h.dataStart + max h.len 4 <= content.length

/-- The range an arm records for a plugin-state header. -/
def ChunkHead.range (h : ChunkHead) : Nat × Nat :=
  (h.dataStart + 4, h.len - 4)

theorem lastState_of_header {f : File} (h : 8 <= f.rest.length) :
    lastState f =
      (lastState (f.seekBy (8 + armLength (headId f) (headLen f) +
        headLen f % 2))).or
          (if headId f = idPchk then
            some { id := headId f, len := headLen f, dataStart := f.pos + 8 }
          else none) := by
  unfold lastState
  rw [chunkHeads, if_pos h, findRev?_cons]
  by_cases hid : headId f = idPchk
  · simp [hid]
  · simp [hid]

theorem lastState_of_end {f : File} (h : f.rest.length < 8) :
    lastState f = none := by
  unfold lastState
  rw [chunkHeads, if_neg (by omega)]
  rfl

/-- The range the loop ends with is that of the last plugin-state header. -/
theorem chunkLoop_pchk {dec : MsgPack ε} {st st' : RiffState}
    (h : chunkLoop dec st = .ok st') :
    st'.pchk = ((lastState st.file).map ChunkHead.range).or st.pchk := by
  refine @chunkLoop_induction _ _
    (fun st st' => st'.pchk =
      ((lastState st.file).map ChunkHead.range).or st.pchk) ?_ ?_ _ _ h
  · intro st hbreak
    have hend := chunkStep_none hbreak
    rw [lastState_of_end (by omega), Option.map_none, Option.none_or]
  · intro st mid st' hstep ih
    rcases chunkStep_some hstep with ⟨h8, hfile, _, hpchk⟩
    rw [ih, lastState_of_header h8, <- hfile, hpchk]
    cases lastState mid.file with
    | some last =>
        rfl
    | none =>
        split
        · rfl
        · rfl

/-- What a scan knows about a preset's plugin state. -/
theorem scan_range {dec : MsgPack ε} {files : Files} {path : Path}
    {nks : NksFile} (h : NksFile.scan dec files path = .ok nks) :
    exists content, files path = some content ∧ nks.path = path ∧
      (nks.pchkOffset, nks.pchkLen) =
        ((lastState { content := content, pos := 12 }).map
          ChunkHead.range).getD (0, 0) := by
  rcases readMetadata_ok h with ⟨content, st, hcontent, hloop, hassemble⟩
  rcases assemble_ok hassemble with ⟨hpath, _, _, _, hrange⟩
  refine ⟨content, hcontent, hpath, ?_⟩
  rw [hrange, chunkLoop_pchk hloop, Option.or_none]

/-- A scanned preset's plugin state lies within the file, and is read back in
full, exactly when the last plugin-state chunk is wholly in the file. -/
theorem scanned_state_readable_iff (dec : MsgPack ε) (files : Files)
    (path : Path) (content : List UInt8) (nks : NksFile)
    (hcontent : files path = some content)
    (hscan : NksFile.scan dec files path = .ok nks) :
    (nks.pchkOffset + nks.pchkLen <= content.length ∧
      exists state,
        (nks.readState files : Except (NksError ε) (List UInt8)) = .ok state ∧
          state = (content.drop nks.pchkOffset).take nks.pchkLen ∧
          state.length = nks.pchkLen) <->
      StatePresent content := by
  rcases scan_range hscan with ⟨content', hcontent', hpath, hrange⟩
  rw [hcontent] at hcontent'
  cases hcontent'
  have hbound : nks.pchkOffset + nks.pchkLen <= content.length <->
      StatePresent content := by
    unfold StatePresent
    cases hlast : lastState { content := content, pos := 12 } with
    | none =>
        rw [hlast] at hrange
        rcases Prod.mk.inj hrange with ⟨hoffset, hlen⟩
        simp [hoffset, hlen]
    | some last =>
        rw [hlast] at hrange
        rcases Prod.mk.inj hrange with ⟨hoffset, hlen⟩
        have hsum : last.dataStart + 4 + (last.len - 4) =
            last.dataStart + max last.len 4 := by omega
        simp [hoffset, hlen, hsum]
  constructor
  · intro h
    exact hbound.mp h.left
  · intro h
    have hle := hbound.mpr h
    refine ⟨hle, (content.drop nks.pchkOffset).take nks.pchkLen, ?_, rfl, ?_⟩
    · rw [NksFile.readState_ok_iff (by rw [hpath]; exact hcontent)]
      exact ⟨by omega, rfl⟩
    · rw [List.length_take, List.length_drop]
      omega

/-!
## Presets at fixed inputs
-/

/-- A summary and a plugin id, both empty maps, and a plugin state declared
with six bytes of which `state` is there. -/
def statePreset (state : List UInt8) : List UInt8 :=
  magicRiff ++ [50, 0, 0, 0] ++ magicNiks ++
    idNisi ++ [5, 0, 0, 0] ++ [1, 0, 0, 0, 0x80] ++ [0] ++
    idPlid ++ [5, 0, 0, 0] ++ [1, 0, 0, 0, 0x80] ++ [0] ++
    idPchk ++ [6, 0, 0, 0] ++ state

def presetFiles (content : List UInt8) : Files := fun _ => some content

def scannedPreset : NksFile :=
  { path := ["a.nksf"], summary := {}, plugin := .unknown, controller := none
    pchkOffset := 52, pchkLen := 2 }

/-- The loop's state at the end of `statePreset`. -/
def statePresetEnd (state : List UInt8) : RiffState :=
  { file := { content := statePreset state, pos := 54 }
    summary := some {}
    plugin := some .unknown
    pchk := some (52, 2) }

theorem scan_whole_statePreset :
    NksFile.scan emptyMapDecoder (presetFiles (statePreset [1, 0, 0, 0, 7, 7]))
      ["a.nksf"] = .ok scannedPreset := by
  have hhead : LoopHead emptyMapDecoder (statePreset [1, 0, 0, 0, 7, 7])
      (statePresetEnd [1, 0, 0, 0, 7, 7]) :=
    ⟨_, rfl, ((Reaches.start.next rfl).next rfl).next rfl⟩
  exact scan_of_loopHead rfl hhead rfl

theorem scanned_state_readable_iff_whole :
    (52 + 2 <= (statePreset [1, 0, 0, 0, 7, 7]).length ∧
      exists state,
        (scannedPreset.readState
          (presetFiles (statePreset [1, 0, 0, 0, 7, 7])) :
            Except (NksError Unit) (List UInt8)) = .ok state ∧
          state = ((statePreset [1, 0, 0, 0, 7, 7]).drop 52).take 2 ∧
          state.length = 2) <->
      StatePresent (statePreset [1, 0, 0, 0, 7, 7]) :=
  scanned_state_readable_iff emptyMapDecoder
    (presetFiles (statePreset [1, 0, 0, 0, 7, 7])) ["a.nksf"]
    (statePreset [1, 0, 0, 0, 7, 7]) scannedPreset rfl scan_whole_statePreset

/-- A preset that lost its last byte is scanned, and its state is lost. -/
theorem scanned_state_not_always_readable :
    Not (forall (dec : MsgPack Unit) (files : Files) (path : Path)
      (content : List UInt8) (nks : NksFile), files path = some content ->
        NksFile.scan dec files path = .ok nks ->
          nks.pchkOffset + nks.pchkLen <= content.length ∧
            exists state,
              (nks.readState files : Except (NksError Unit) (List UInt8)) =
                .ok state ∧ state.length = nks.pchkLen) := by
  intro hall
  have hhead : LoopHead emptyMapDecoder (statePreset [1, 0, 0, 0, 7])
      (statePresetEnd [1, 0, 0, 0, 7]) :=
    ⟨_, rfl, ((Reaches.start.next rfl).next rfl).next rfl⟩
  have hscan : NksFile.scan emptyMapDecoder
      (presetFiles (statePreset [1, 0, 0, 0, 7])) ["a.nksf"] =
        .ok scannedPreset := scan_of_loopHead rfl hhead rfl
  have hle := (hall _ _ _ _ _ rfl hscan).left
  exact absurd hle (by decide)

end Nks
end OpenMk3
