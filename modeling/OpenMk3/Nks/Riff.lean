import OpenMk3.Library.Cursor
import OpenMk3.Library.Fallible
import OpenMk3.Library.Words
import OpenMk3.Nks.Types

/-!
# The RIFF reader

The chunk loop of `read_metadata` and the later read of the plugin state.  A
file is a byte string read at a position; seeking past its end succeeds.
-/

namespace OpenMk3
namespace Nks

open Library

variable {ε : Type}

abbrev File := Cursor UInt8

/-!
## Magics and chunk ids
-/

def magicRiff : List UInt8 := [0x52, 0x49, 0x46, 0x46]

def magicNiks : List UInt8 := [0x4e, 0x49, 0x4b, 0x53]

def idNisi : List UInt8 := [0x4e, 0x49, 0x53, 0x49]

def idPlid : List UInt8 := [0x50, 0x4c, 0x49, 0x44]

def idNica : List UInt8 := [0x4e, 0x49, 0x43, 0x41]

def idPchk : List UInt8 := [0x50, 0x43, 0x48, 0x4b]

/-!
## Reads
-/

def read4 (f : File) : Option (List UInt8 × File) := f.readExact 4

def readU32Le (f : File) : Option (Nat × File) :=
  (read4 f).map fun (b, f) => (leNat b, f)

/-- The `?` after a read: the end of the file is the only failure. -/
def orEof {α : Type} : Option α -> Except (NksError ε) α
  | some a => .ok a
  | none => .error (.io .unexpectedEof)

/-- The version prefix, then the payload. -/
def readVersioned (payloadLen : Nat) (f : File) :
    Except (NksError ε) (List UInt8 × File) := do
  let (_, f) <- orEof (readU32Le f)
  orEof (f.readExact payloadLen)

/-!
## The chunk loop
-/

/-- The variables of the loop of `read_metadata`. -/
structure RiffState where
  file : File
  summary : Option NksSummary := none
  plugin : Option NksPluginId := none
  controller : Option NksController := none
  pchk : Option (Nat × Nat) := none
deriving DecidableEq, Repr

/-- The match on the chunk id, with the file right after the length field. -/
def readChunk (dec : MsgPack ε) (id : List UInt8) (len : Nat)
    (st : RiffState) : Except (NksError ε) RiffState :=
  let dataStart := st.file.pos
  -- the subtraction saturates in the source too
  let payloadLen := len - 4
  if id = idNisi then do
    let (buf, f) <- readVersioned payloadLen st.file
    let summary <- (dec.summary buf).mapError NksError.msgPack
    .ok { st with file := f, summary := some summary }
  else if id = idPlid then do
    let (buf, f) <- readVersioned payloadLen st.file
    let plugin <- (dec.plugin buf).mapError NksError.msgPack
    .ok { st with file := f, plugin := some plugin }
  else if id = idNica then do
    let (buf, f) <- readVersioned payloadLen st.file
    .ok { st with file := f, controller := some { raw := buf } }
  else if id = idPchk then
    .ok
      { st with
        file := st.file.seekBy len
        pchk := some (dataStart + 4, payloadLen) }
  else
    .ok { st with file := st.file.seekBy len }

/-- Chunks are padded to even length. -/
def skipPad (len : Nat) (st : RiffState) : RiffState :=
  if len % 2 = 1 then { st with file := st.file.seekBy 1 } else st

/-- One iteration of the loop; `none` is the break at the end of the file. -/
def chunkStep (dec : MsgPack ε) (st : RiffState) :
    Except (NksError ε) (Option RiffState) :=
  match read4 st.file with
  | none => .ok none
  | some (id, f) => do
      let (len, f) <- orEof (readU32Le f)
      let st <- readChunk dec id len { st with file := f }
      .ok (some (skipPad len st))

/-!
## What an iteration does
-/

/-- The ids whose arms read a version prefix before the payload. -/
def Versioned (id : List UInt8) : Prop :=
  id = idNisi ∨ id = idPlid ∨ id = idNica

instance (id : List UInt8) : Decidable (Versioned id) :=
  inferInstanceAs (Decidable (_ ∨ _ ∨ _))

/-- The bytes an arm moves over: short chunks still give up their prefix. -/
def armLength (id : List UInt8) (len : Nat) : Nat :=
  if Versioned id then max len 4 else len

/-- The id and the length field at the head of a chunk. -/
def headId (f : File) : List UInt8 := f.rest.take 4

def headLen (f : File) : Nat := leNat ((f.rest.drop 4).take 4)

theorem orEof_eq_ok_iff {α : Type} {x : Option α} {a : α} :
    (orEof x : Except (NksError ε) α) = .ok a <-> x = some a := by
  cases x with
  | none =>
      simp [orEof]
  | some b =>
      simp [orEof]

theorem readU32Le_eq (f : File) :
    readU32Le f =
      if 4 <= f.rest.length then some (leNat (f.rest.take 4), f.seekBy 4)
      else none := by
  unfold readU32Le read4 Cursor.readExact
  split
  · rfl
  · rfl

theorem readVersioned_eq (n : Nat) (f : File) :
    (readVersioned n f : Except (NksError ε) (List UInt8 × File)) =
      if 4 + n <= f.rest.length then
        .ok ((f.rest.drop 4).take n, f.seekBy (4 + n))
      else .error (.io .unexpectedEof) := by
  unfold readVersioned
  rw [readU32Le_eq]
  by_cases h4 : 4 <= f.rest.length
  · rw [if_pos h4]
    simp only [orEof, Fallible.ok_bind, Cursor.readExact, Cursor.rest_seekBy,
      List.length_drop, Cursor.seekBy_seekBy]
    by_cases hn : 4 + n <= f.rest.length
    · rw [if_pos hn, if_pos (by omega)]
    · rw [if_neg hn, if_neg (by omega)]
  · rw [if_neg h4, if_neg (by omega)]
    rfl

theorem readVersioned_file {n : Nat} {f f' : File} {buf : List UInt8}
    (h : (readVersioned n f : Except (NksError ε) (List UInt8 × File)) =
      .ok (buf, f')) :
    4 + n <= f.rest.length ∧ f' = f.seekBy (4 + n) := by
  rw [readVersioned_eq] at h
  split at h
  · rename_i hn
    cases h
    exact ⟨hn, rfl⟩
  · cases h

/-- The three arms with a version move over at least its four bytes. -/
theorem readVersioned_arm {id : List UInt8} {len : Nat} {f f' : File}
    {buf : List UInt8} (hver : Versioned id)
    (h : (readVersioned (len - 4) f : Except (NksError ε) (List UInt8 × File)) =
      .ok (buf, f')) :
    f' = f.seekBy (armLength id len) ∧ max len 4 <= f.rest.length := by
  have hmax : 4 + (len - 4) = max len 4 := by omega
  rcases readVersioned_file h with ⟨hlen, hf⟩
  rw [hmax] at hlen hf
  rw [armLength, if_pos hver]
  exact ⟨hf, hlen⟩

/-- The file after an arm, and the range an arm records. -/
theorem readChunk_ok {dec : MsgPack ε} {id : List UInt8} {len : Nat}
    {st st' : RiffState} (h : readChunk dec id len st = .ok st') :
    st'.file = st.file.seekBy (armLength id len) ∧
      (Versioned id -> max len 4 <= st.file.rest.length) ∧
      st'.pchk =
        if id = idPchk then some (st.file.pos + 4, len - 4) else st.pchk := by
  unfold readChunk at h
  dsimp only at h
  split at h
  · rename_i hid
    rcases Fallible.bind_eq_ok_iff.mp h with ⟨⟨buf, f⟩, hread, h⟩
    rcases Fallible.bind_eq_ok_iff.mp h with ⟨summary, _, h⟩
    cases h
    rcases readVersioned_arm (Or.inl hid) hread with ⟨hf, hlen⟩
    subst hid
    exact ⟨hf, fun _ => hlen, rfl⟩
  split at h
  · rename_i hid
    rcases Fallible.bind_eq_ok_iff.mp h with ⟨⟨buf, f⟩, hread, h⟩
    rcases Fallible.bind_eq_ok_iff.mp h with ⟨plugin, _, h⟩
    cases h
    rcases readVersioned_arm (Or.inr (Or.inl hid)) hread with ⟨hf, hlen⟩
    subst hid
    exact ⟨hf, fun _ => hlen, rfl⟩
  split at h
  · rename_i hid
    rcases Fallible.bind_eq_ok_iff.mp h with ⟨⟨buf, f⟩, hread, h⟩
    cases h
    rcases readVersioned_arm (Or.inr (Or.inr hid)) hread with ⟨hf, hlen⟩
    subst hid
    exact ⟨hf, fun _ => hlen, rfl⟩
  rename_i hnisi hplid hnica
  have hver : Not (Versioned id) := by
    simp [Versioned, hnisi, hplid, hnica]
  have harm : armLength id len = len := if_neg hver
  rw [harm]
  split at h
  · rename_i hid
    cases h
    exact ⟨rfl, fun hv => absurd hv hver, (if_pos hid).symm⟩
  · rename_i hid
    cases h
    exact ⟨rfl, fun hv => absurd hv hver, (if_neg hid).symm⟩

theorem skipPad_file (len : Nat) (st : RiffState) :
    (skipPad len st).file = st.file.seekBy (len % 2) := by
  unfold skipPad
  split
  · rename_i hodd
    rw [hodd]
  · rename_i heven
    have hzero : len % 2 = 0 := by omega
    rw [hzero, Cursor.seekBy_zero]

@[simp] theorem skipPad_pchk (len : Nat) (st : RiffState) :
    (skipPad len st).pchk = st.pchk := by
  unfold skipPad
  split
  · rfl
  · rfl

/-- The break: fewer than four bytes are left. -/
theorem chunkStep_of_end (dec : MsgPack ε) {st : RiffState}
    (h : st.file.rest.length < 4) : chunkStep dec st = .ok none := by
  unfold chunkStep read4
  rw [Cursor.readExact_eq_none_iff.mpr h]

/-- An iteration with a whole chunk header before it. -/
theorem chunkStep_of_header (dec : MsgPack ε) {st : RiffState}
    (h : 8 <= st.file.rest.length) :
    chunkStep dec st =
      (readChunk dec (headId st.file) (headLen st.file)
        { st with file := st.file.seekBy 8 }).map
          fun st' => some (skipPad (headLen st.file) st') := by
  have hid : read4 st.file = some (headId st.file, st.file.seekBy 4) :=
    Cursor.readExact_eq_some_iff.mpr ⟨by omega, rfl, rfl⟩
  have hlen : readU32Le (st.file.seekBy 4) =
      some (headLen st.file, st.file.seekBy 8) := by
    rw [readU32Le_eq, if_pos (by simp; omega)]
    simp [headLen, Cursor.seekBy_seekBy]
  unfold chunkStep
  rw [hid]
  simp only [hlen, orEof, Fallible.ok_bind]
  cases readChunk dec (headId st.file) (headLen st.file)
      { st with file := st.file.seekBy 8 } with
  | error e =>
      rfl
  | ok st' =>
      rfl

/-- A truncated length field is an error, never a break. -/
theorem chunkStep_of_truncated (dec : MsgPack ε) {st : RiffState}
    (h4 : 4 <= st.file.rest.length) (h8 : st.file.rest.length < 8) :
    chunkStep dec st = .error (.io .unexpectedEof) := by
  have hid : read4 st.file = some (headId st.file, st.file.seekBy 4) :=
    Cursor.readExact_eq_some_iff.mpr ⟨h4, rfl, rfl⟩
  unfold chunkStep
  rw [hid]
  simp only [readU32Le_eq, Cursor.rest_seekBy, List.length_drop]
  rw [if_neg (by omega)]
  rfl

theorem chunkStep_none {dec : MsgPack ε} {st : RiffState}
    (h : chunkStep dec st = .ok none) : st.file.rest.length < 4 := by
  by_contra h4
  by_cases h8 : 8 <= st.file.rest.length
  · rw [chunkStep_of_header dec h8] at h
    cases hread : readChunk dec (headId st.file) (headLen st.file)
        { st with file := st.file.seekBy 8 } with
    | error e =>
        rw [hread] at h
        cases h
    | ok st1 =>
        rw [hread] at h
        cases h
  · rw [chunkStep_of_truncated dec (by omega) (by omega)] at h
    cases h

/-- Everything an iteration that goes on does to the file and the range. -/
theorem chunkStep_some {dec : MsgPack ε} {st st' : RiffState}
    (h : chunkStep dec st = .ok (some st')) :
    8 <= st.file.rest.length ∧
      st'.file = st.file.seekBy (8 + armLength (headId st.file)
        (headLen st.file) + headLen st.file % 2) ∧
      (Versioned (headId st.file) ->
        8 + max (headLen st.file) 4 <= st.file.rest.length) ∧
      st'.pchk =
        if headId st.file = idPchk then
          some (st.file.pos + 12, headLen st.file - 4)
        else st.pchk := by
  have h8 : 8 <= st.file.rest.length := by
    by_contra hshort
    by_cases h4 : 4 <= st.file.rest.length
    · rw [chunkStep_of_truncated dec h4 (by omega)] at h
      cases h
    · rw [chunkStep_of_end dec (by omega)] at h
      cases h
  rw [chunkStep_of_header dec h8] at h
  cases hread : readChunk dec (headId st.file) (headLen st.file)
      { st with file := st.file.seekBy 8 } with
  | error e =>
      rw [hread] at h
      cases h
  | ok st1 =>
      rw [hread] at h
      cases h
      rcases readChunk_ok hread with ⟨hfile, hversioned, hpchk⟩
      refine ⟨h8, ?_, ?_, ?_⟩
      · rw [skipPad_file, hfile, Cursor.seekBy_seekBy, Cursor.seekBy_seekBy,
          Nat.add_assoc]
      · intro hv
        have hmax := hversioned hv
        simp only [Cursor.rest_seekBy, List.length_drop] at hmax
        omega
      · rw [skipPad_pchk, hpchk]
        rfl

theorem chunkStep_shrinks {dec : MsgPack ε} {st st' : RiffState}
    (h : chunkStep dec st = .ok (some st')) :
    st'.file.rest.length < st.file.rest.length := by
  rcases chunkStep_some h with ⟨h8, hfile, _⟩
  rw [hfile, Cursor.rest_seekBy, List.length_drop]
  omega

/-!
## Whole files
-/

/-- The loop, until the file ends at a chunk head or an arm fails. -/
def chunkLoop (dec : MsgPack ε) (st : RiffState) :
    Except (NksError ε) RiffState :=
  match _hstep : chunkStep dec st with
  | .error e => .error e
  | .ok none => .ok st
  | .ok (some st') => chunkLoop dec st'
termination_by st.file.rest.length
decreasing_by exact chunkStep_shrinks _hstep

theorem chunkLoop_of_step {dec : MsgPack ε} {st st' : RiffState}
    (h : chunkStep dec st = .ok (some st')) :
    chunkLoop dec st = chunkLoop dec st' := by
  rw [chunkLoop]
  split
  · rename_i heq
    rw [h] at heq
    cases heq
  · rename_i heq
    rw [h] at heq
    cases heq
  · rename_i heq
    rw [h] at heq
    cases heq
    rfl

theorem chunkLoop_of_break {dec : MsgPack ε} {st : RiffState}
    (h : chunkStep dec st = .ok none) : chunkLoop dec st = .ok st := by
  rw [chunkLoop]
  split
  · rename_i heq
    rw [h] at heq
    cases heq
  · rfl
  · rename_i heq
    rw [h] at heq
    cases heq

theorem chunkLoop_of_error {dec : MsgPack ε} {st : RiffState} {e : NksError ε}
    (h : chunkStep dec st = .error e) : chunkLoop dec st = .error e := by
  rw [chunkLoop]
  split
  · rename_i heq
    rw [h] at heq
    cases heq
    rfl
  · rename_i heq
    rw [h] at heq
    cases heq
  · rename_i heq
    rw [h] at heq
    cases heq

/-- A property of the loop's states that holds at the break and passes back
over an iteration holds of every state whose loop succeeds. -/
theorem chunkLoop_induction {dec : MsgPack ε}
    {P : RiffState -> RiffState -> Prop}
    (hbreak : forall st, chunkStep dec st = .ok none -> P st st)
    (hstep : forall st mid st', chunkStep dec st = .ok (some mid) ->
      P mid st' -> P st st')
    {st st' : RiffState} (h : chunkLoop dec st = .ok st') : P st st' := by
  induction st using chunkLoop.induct dec with
  | case1 _ e heq =>
      rw [chunkLoop_of_error heq] at h
      cases h
  | case2 st heq =>
      rw [chunkLoop_of_break heq] at h
      cases h
      exact hbreak st' heq
  | case3 st mid heq ih =>
      rw [chunkLoop_of_step heq] at h
      exact hstep st mid st' heq (ih h)

/-- The checks after the loop. -/
def assemble (path : Path) (st : RiffState) : Except (NksError ε) NksFile :=
  match st.summary, st.plugin with
  | none, _ => .error (.missingChunk "NISI")
  | some _, none => .error (.missingChunk "PLID")
  | some summary, some plugin =>
      let (pchkOffset, pchkLen) := st.pchk.getD (0, 0)
      .ok
        { path := path
          summary := summary
          plugin := plugin
          controller := st.controller
          pchkOffset := pchkOffset
          pchkLen := pchkLen }

/-- The twelve bytes before the first chunk. -/
def readHeader (f : File) : Except (NksError ε) File := do
  let (magic, f) <- orEof (read4 f)
  if magic ≠ magicRiff then
    .error .notNks
  else
    let (_, f) <- orEof (readU32Le f)
    let (form, f) <- orEof (read4 f)
    if form ≠ magicNiks then .error .notNks else .ok f

theorem readHeader_ok {f f' : File}
    (h : (readHeader f : Except (NksError ε) File) = .ok f') :
    f' = f.seekBy 12 := by
  unfold readHeader at h
  rcases Fallible.bind_eq_ok_iff.mp h with ⟨⟨magic, f1⟩, h1, h⟩
  rcases Cursor.readExact_eq_some_iff.mp (orEof_eq_ok_iff.mp h1) with
    ⟨_, _, hf1⟩
  dsimp only at h
  split at h
  · cases h
  rcases Fallible.bind_eq_ok_iff.mp h with ⟨⟨total, f2⟩, h2, h⟩
  rw [orEof_eq_ok_iff, readU32Le_eq] at h2
  split at h2
  · rcases Fallible.bind_eq_ok_iff.mp h with ⟨⟨form, f3⟩, h3, h⟩
    rcases Cursor.readExact_eq_some_iff.mp (orEof_eq_ok_iff.mp h3) with
      ⟨_, _, hf3⟩
    dsimp only at h
    split at h
    · cases h
    · cases h
      cases h2
      rw [hf3, hf1, Cursor.seekBy_seekBy, Cursor.seekBy_seekBy]
  · cases h2

theorem readHeader_magics {f : File} {total body : List UInt8}
    (htotal : total.length = 4)
    (h : f.rest = magicRiff ++ (total ++ (magicNiks ++ body))) :
    (readHeader f : Except (NksError ε) File) = .ok (f.seekBy 12) := by
  have h1 : read4 f = some (magicRiff, f.seekBy 4) :=
    Cursor.readExact_append h
  have hrest1 : (f.seekBy 4).rest = total ++ (magicNiks ++ body) := by
    rw [Cursor.rest_seekBy, h]
    rfl
  have hrest2 : (f.seekBy 8).rest = magicNiks ++ body := by
    rw [<- Cursor.seekBy_seekBy 4 4, Cursor.rest_seekBy, hrest1]
    exact List.drop_left' htotal
  have h2 : readU32Le (f.seekBy 4) = some (leNat total, f.seekBy 8) := by
    rw [readU32Le_eq, hrest1, if_pos (by simp [htotal]),
      List.take_left' htotal, Cursor.seekBy_seekBy]
  have h3 : read4 (f.seekBy 8) = some (magicNiks, f.seekBy 12) :=
    Cursor.readExact_append hrest2
  unfold readHeader
  simp [h1, h2, h3, orEof]

def readMetadata (dec : MsgPack ε) (files : Files) (path : Path) :
    Except (NksError ε) NksFile :=
  match files path with
  | none => .error (.io .notFound)
  | some content => do
      let f <- readHeader (Cursor.start content)
      let st <- chunkLoop dec { file := f }
      assemble path st

theorem assemble_ok {path : Path} {st : RiffState} {nks : NksFile}
    (h : (assemble path st : Except (NksError ε) NksFile) = .ok nks) :
    nks.path = path ∧ st.summary = some nks.summary ∧
      st.plugin = some nks.plugin ∧ nks.controller = st.controller ∧
      (nks.pchkOffset, nks.pchkLen) = st.pchk.getD (0, 0) := by
  unfold assemble at h
  split at h
  · cases h
  · cases h
  · rename_i summary plugin hsummary hplugin
    cases h
    exact ⟨rfl, hsummary, hplugin, rfl, rfl⟩

theorem readMetadata_ok {dec : MsgPack ε} {files : Files} {path : Path}
    {nks : NksFile} (h : readMetadata dec files path = .ok nks) :
    exists content st, files path = some content ∧
      chunkLoop dec { file := { content := content, pos := 12 } } = .ok st ∧
      (assemble path st : Except (NksError ε) NksFile) = .ok nks := by
  unfold readMetadata at h
  split at h
  · cases h
  · rename_i content hcontent
    rcases Fallible.bind_eq_ok_iff.mp h with ⟨f, hf, h⟩
    rcases Fallible.bind_eq_ok_iff.mp h with ⟨st, hst, h⟩
    rw [readHeader_ok hf] at hst
    exact ⟨content, st, hcontent, hst, h⟩

namespace NksFile

def scan (dec : MsgPack ε) (files : Files) (path : Path) :
    Except (NksError ε) NksFile :=
  readMetadata dec files path

/-- The plugin state, read from the range found by the scan. -/
def readState (files : Files) (nks : NksFile) :
    Except (NksError ε) (List UInt8) :=
  match files nks.path with
  | none => .error (.io .notFound)
  | some content => do
      let f := (Cursor.start content).seekBy nks.pchkOffset
      let (buf, _) <- orEof (f.readExact nks.pchkLen)
      .ok buf

theorem readState_ok_iff {files : Files} {nks : NksFile}
    {content state : List UInt8} (hfile : files nks.path = some content) :
    (nks.readState files : Except (NksError ε) (List UInt8)) = .ok state <->
      nks.pchkLen <= content.length - nks.pchkOffset ∧
        state = (content.drop nks.pchkOffset).take nks.pchkLen := by
  have hrest : ((Cursor.start content).seekBy nks.pchkOffset).rest =
      content.drop nks.pchkOffset := Cursor.rest_seekBy _ _
  unfold readState
  rw [hfile]
  simp only [Fallible.bind_eq_ok_iff, orEof_eq_ok_iff]
  constructor
  · intro h
    rcases h with ⟨⟨buf, f⟩, hread, hbuf⟩
    rcases Cursor.readExact_eq_some_iff.mp hread with ⟨hlen, hbytes, _⟩
    rw [hrest] at hlen hbytes
    rw [List.length_drop] at hlen
    cases hbuf
    exact ⟨hlen, hbytes⟩
  · intro h
    refine ⟨(state, _), Cursor.readExact_eq_some_iff.mpr ⟨?_, ?_, rfl⟩, rfl⟩
    · rw [hrest, List.length_drop]
      exact h.left
    · rw [hrest]
      exact h.right

end NksFile

end Nks
end OpenMk3
