import OpenMk3.Library.Search
import OpenMk3.Nks.Riff

/-!
# Container round trip

What a scan and a later state read return on a file written as a list of
chunks: the last chunk of each known kind decides, and the first summary or
plugin chunk that does not decode decides the error.
-/

namespace OpenMk3
namespace Nks

open Library

variable {ε : Type}

/-!
## Written containers
-/

/-- The decoding error of a chunk with the given id and payload. -/
def decodeErrorOf (dec : MsgPack ε) (id payload : List UInt8) : Option ε :=
  if id = idNisi then
    match dec.summary payload with
    | .error e => some e
    | .ok _ => none
  else if id = idPlid then
    match dec.plugin payload with
    | .error e => some e
    | .ok _ => none
  else none

structure Chunk where
  id : List UInt8
  data : List UInt8
  pad : UInt8
  id_length : id.length = 4
  data_length : data.length < 2 ^ 32

namespace Chunk

/-- Data after the version prefix. -/
def payload (c : Chunk) : List UInt8 := c.data.drop 4

def padding (c : Chunk) : List UInt8 :=
  if c.data.length % 2 = 1 then [c.pad] else []

def bytes (c : Chunk) : List UInt8 :=
  c.id ++ (leBytes 4 c.data.length ++ (c.data ++ c.padding))

/-- Chunks whose arms read a prefix have one. -/
def WellSized (c : Chunk) : Prop := Versioned c.id -> 4 <= c.data.length

instance (c : Chunk) : Decidable c.WellSized :=
  inferInstanceAs (Decidable (Versioned c.id -> 4 <= c.data.length))

def decodeError (dec : MsgPack ε) (c : Chunk) : Option ε :=
  decodeErrorOf dec c.id c.payload

end Chunk

def container (total : UInt32) (chunks : List Chunk) : List UInt8 :=
  magicRiff ++ (leBytes 4 total.toNat ++
    (magicNiks ++ chunks.flatMap Chunk.bytes))

def lastPayload (id : List UInt8) (chunks : List Chunk) :
    Option (List UInt8) :=
  (chunks.findRev? fun c => c.id = id).map Chunk.payload

/-- What a reader of a preset learns: the metadata and the plugin state. -/
structure Preset where
  summary : NksSummary
  plugin : NksPluginId
  controller : Option NksController
  state : List UInt8
deriving DecidableEq, Repr

/-- The contents of a container, from its chunks alone. -/
def decodeContainer (dec : MsgPack ε) (chunks : List Chunk) :
    Except (NksError ε) Preset :=
  match chunks.findSome? (Chunk.decodeError dec) with
  | some e => .error (.msgPack e)
  | none =>
      match lastPayload idNisi chunks, lastPayload idPlid chunks with
      | none, _ => .error (.missingChunk "NISI")
      | some _, none => .error (.missingChunk "PLID")
      | some nisi, some plid => do
          let summary <- (dec.summary nisi).mapError NksError.msgPack
          let plugin <- (dec.plugin plid).mapError NksError.msgPack
          .ok
            { summary := summary
              plugin := plugin
              controller := (lastPayload idNica chunks).map NksController.mk
              state := (lastPayload idPchk chunks).getD [] }

/-!
## One chunk
-/

namespace Chunk

/-- The payload of a chunk, when it is of the given kind. -/
def payloadAs (id : List UInt8) (c : Chunk) : Option (List UInt8) :=
  if c.id = id then some c.payload else none

theorem padding_length (c : Chunk) :
    c.padding.length = c.data.length % 2 := by
  unfold padding
  split
  · rename_i hodd
    simp [hodd]
  · simp
    omega

theorem bytes_length (c : Chunk) :
    c.bytes.length = 8 + c.data.length + c.data.length % 2 := by
  simp [bytes, c.id_length, c.padding_length]
  omega

end Chunk

theorem lastPayload_cons (id : List UInt8) (c : Chunk) (rest : List Chunk) :
    lastPayload id (c :: rest) =
      (lastPayload id rest).or (c.payloadAs id) := by
  unfold lastPayload Chunk.payloadAs
  rw [findRev?_cons]
  by_cases hid : c.id = id
  · simp [hid]
  · simp [hid]

/-- A variable of the loop after chunks whose last payload for it is `found`:
left alone, or the value that the payload gives. -/
def Filled {β : Type} (R : List UInt8 -> β -> Prop)
    (found : Option (List UInt8)) (old new : Option β) : Prop :=
  match found with
  | none => new = old
  | some p => exists b, R p b ∧ new = some b

theorem Filled.trans {β : Type} {R : List UInt8 -> β -> Prop}
    {first second : Option (List UInt8)} {old mid new : Option β}
    (h1 : Filled R first old mid) (h2 : Filled R second mid new) :
    Filled R (second.or first) old new := by
  cases second with
  | none =>
      cases h2
      exact h1
  | some p =>
      exact h2

/-- The range of a content that holds a payload. -/
def RangeHolds (content payload : List UInt8) (range : Nat × Nat) : Prop :=
  range.2 = payload.length ∧
    (content.drop range.1).take range.2 = payload

/-- The loop's variables after chunks with the last payloads `found`. -/
structure Absorbed (dec : MsgPack ε) (found : List UInt8 -> Option (List UInt8))
    (st st' : RiffState) : Prop where
  content : st'.file.content = st.file.content
  summary : Filled (fun p s => dec.summary p = .ok s) (found idNisi)
    st.summary st'.summary
  plugin : Filled (fun p q => dec.plugin p = .ok q) (found idPlid)
    st.plugin st'.plugin
  controller : Filled (fun p c => c = NksController.mk p) (found idNica)
    st.controller st'.controller
  pchk : Filled (RangeHolds st.file.content) (found idPchk) st.pchk st'.pchk

theorem Absorbed.trans {dec : MsgPack ε}
    {first second : List UInt8 -> Option (List UInt8)}
    {st mid st' : RiffState} (h1 : Absorbed dec first st mid)
    (h2 : Absorbed dec second mid st') :
    Absorbed dec (fun id => (second id).or (first id)) st st' :=
  { content := h2.content.trans h1.content
    summary := h1.summary.trans h2.summary
    plugin := h1.plugin.trans h2.plugin
    controller := h1.controller.trans h2.controller
    pchk := h1.pchk.trans (h1.content ▸ h2.pchk) }

section Heads

variable {c : Chunk} {f : File} {tail : List UInt8}

theorem headId_chunk (h : f.rest = c.bytes ++ tail) : headId f = c.id := by
  unfold headId
  rw [h, Chunk.bytes, List.append_assoc]
  exact List.take_left' c.id_length

theorem headLen_chunk (h : f.rest = c.bytes ++ tail) :
    headLen f = c.data.length := by
  unfold headLen
  rw [h, Chunk.bytes, List.append_assoc, List.drop_left' c.id_length,
    List.append_assoc, List.take_left' (leBytes_length 4 _),
    leNat_leBytes c.data_length]

theorem rest_data_chunk (h : f.rest = c.bytes ++ tail) :
    (f.seekBy 8).rest = c.data ++ (c.padding ++ tail) := by
  rw [Cursor.rest_seekBy, h, Chunk.bytes]
  have hhead : (c.id ++ leBytes 4 c.data.length).length = 8 := by
    simp [c.id_length]
  rw [<- List.append_assoc c.id, List.append_assoc,
    List.drop_left' hhead, List.append_assoc]

theorem rest_next_chunk (h : f.rest = c.bytes ++ tail) :
    (f.seekBy c.bytes.length).rest = tail := by
  rw [Cursor.rest_seekBy, h]
  exact List.drop_left

end Heads

section Arms

variable {dec : MsgPack ε} {c : Chunk} {st : RiffState} {tail : List UInt8}

theorem readVersioned_data {f : File} {data : List UInt8}
    (hlen : 4 <= data.length) (hrest : f.rest = data ++ tail) :
    (readVersioned (data.length - 4) f :
      Except (NksError ε) (List UInt8 × File)) =
        .ok (data.drop 4, f.seekBy data.length) := by
  have hsum : 4 + (data.length - 4) = data.length := by omega
  have htake : (f.rest.drop 4).take (data.length - 4) = data.drop 4 := by
    rw [hrest, List.drop_append_of_le_length hlen]
    exact List.take_left' (by simp)
  rw [readVersioned_eq, hsum, htake, if_pos (by rw [hrest]; simp)]

theorem rangeHolds_data (hrest : st.file.rest = c.data ++ tail) :
    RangeHolds st.file.content c.payload
      (st.file.pos + 4, c.data.length - 4) := by
  have hdrop : st.file.content.drop (st.file.pos + 4) =
      (c.data ++ tail).drop 4 := by
    rw [<- hrest, Cursor.rest, List.drop_drop]
  refine ⟨by simp [Chunk.payload], ?_⟩
  dsimp only
  rw [hdrop]
  by_cases hlen : 4 <= c.data.length
  · rw [List.drop_append_of_le_length hlen]
    exact List.take_left' (by simp)
  · have hzero : c.data.length - 4 = 0 := by omega
    have hshort : c.data.length <= 4 := by omega
    simp [hzero, Chunk.payload, hshort]

/-- The read of a versioned arm, in the arm's own error type. -/
theorem readVersioned_chunk (hsized : c.WellSized) (hv : Versioned c.id)
    (hrest : st.file.rest = c.data ++ tail) :
    (readVersioned (c.data.length - 4) st.file :
      Except (NksError ε) (List UInt8 × File)) =
        .ok (c.payload, st.file.seekBy c.data.length) :=
  readVersioned_data (hsized hv) hrest

theorem readChunk_of_decodeError {e : ε}
    (hsized : c.WellSized) (hrest : st.file.rest = c.data ++ tail)
    (h : c.decodeError dec = some e) :
    readChunk dec c.id c.data.length st = .error (.msgPack e) := by
  unfold Chunk.decodeError decodeErrorOf at h
  unfold readChunk
  split at h
  · rename_i hid
    rw [if_pos hid, readVersioned_chunk hsized (Or.inl hid) hrest]
    split at h
    · rename_i e' herror
      cases h
      simp [herror]
    · cases h
  rename_i hnisi
  split at h
  · rename_i hid
    rw [if_neg hnisi, if_pos hid,
      readVersioned_chunk hsized (Or.inr (Or.inl hid)) hrest]
    split at h
    · rename_i e' herror
      cases h
      simp [herror]
    · cases h
  · cases h

/-- A chunk of another id leaves a variable alone. -/
theorem Filled.other {β : Type} {R : List UInt8 -> β -> Prop} {id : List UInt8}
    (h : c.id ≠ id) (old : Option β) : Filled R (c.payloadAs id) old old := by
  rw [Chunk.payloadAs, if_neg h]
  rfl

theorem Filled.own {β : Type} {R : List UInt8 -> β -> Prop} {id : List UInt8}
    (h : c.id = id) {b : β} (hb : R c.payload b) (old : Option β) :
    Filled R (c.payloadAs id) old (some b) := by
  rw [Chunk.payloadAs, if_pos h]
  exact ⟨b, hb, rfl⟩

/-- A chunk that decodes is absorbed by its arm, which moves over its data. -/
theorem readChunk_absorbs (hsized : c.WellSized)
    (hrest : st.file.rest = c.data ++ tail) (h : c.decodeError dec = none) :
    exists st', readChunk dec c.id c.data.length st = .ok st' ∧
      st'.file = st.file.seekBy c.data.length ∧
      Absorbed dec (fun id => c.payloadAs id) st st' := by
  unfold Chunk.decodeError decodeErrorOf at h
  unfold readChunk
  by_cases hnisi : c.id = idNisi
  · rw [if_pos hnisi] at h ⊢
    rw [readVersioned_chunk hsized (Or.inl hnisi) hrest]
    split at h
    · cases h
    · rename_i summary hsummary
      refine ⟨{ st with
        file := st.file.seekBy c.data.length, summary := some summary },
        by simp [hsummary], rfl, rfl, ?_, ?_, ?_, ?_⟩
      · exact Filled.own hnisi hsummary st.summary
      · exact Filled.other (by rw [hnisi]; decide) st.plugin
      · exact Filled.other (by rw [hnisi]; decide) st.controller
      · exact Filled.other (by rw [hnisi]; decide) st.pchk
  rw [if_neg hnisi] at h ⊢
  by_cases hplid : c.id = idPlid
  · rw [if_pos hplid] at h ⊢
    rw [readVersioned_chunk hsized (Or.inr (Or.inl hplid)) hrest]
    split at h
    · cases h
    · rename_i plugin hplugin
      refine ⟨{ st with
        file := st.file.seekBy c.data.length, plugin := some plugin },
        by simp [hplugin], rfl, rfl, ?_, ?_, ?_, ?_⟩
      · exact Filled.other hnisi st.summary
      · exact Filled.own hplid hplugin st.plugin
      · exact Filled.other (by rw [hplid]; decide) st.controller
      · exact Filled.other (by rw [hplid]; decide) st.pchk
  rw [if_neg hplid]
  by_cases hnica : c.id = idNica
  · rw [if_pos hnica, readVersioned_chunk hsized (Or.inr (Or.inr hnica)) hrest]
    refine ⟨{ st with
      file := st.file.seekBy c.data.length
      controller := some { raw := c.payload } },
      rfl, rfl, rfl, ?_, ?_, ?_, ?_⟩
    · exact Filled.other hnisi st.summary
    · exact Filled.other hplid st.plugin
    · refine Filled.own hnica ?_ st.controller
      rfl
    · exact Filled.other (by rw [hnica]; decide) st.pchk
  rw [if_neg hnica]
  by_cases hpchk : c.id = idPchk
  · rw [if_pos hpchk]
    refine ⟨{ st with
      file := st.file.seekBy c.data.length
      pchk := some (st.file.pos + 4, c.data.length - 4) },
      rfl, rfl, rfl, ?_, ?_, ?_, ?_⟩
    · exact Filled.other hnisi st.summary
    · exact Filled.other hplid st.plugin
    · exact Filled.other hnica st.controller
    · exact Filled.own hpchk (rangeHolds_data hrest) st.pchk
  rw [if_neg hpchk]
  refine ⟨{ st with file := st.file.seekBy c.data.length },
    rfl, rfl, rfl, ?_, ?_, ?_, ?_⟩
  · exact Filled.other hnisi st.summary
  · exact Filled.other hplid st.plugin
  · exact Filled.other hnica st.controller
  · exact Filled.other hpchk st.pchk

end Arms

/-!
## Lists of chunks
-/

section Loop

variable {dec : MsgPack ε} {c : Chunk} {st : RiffState} {tail : List UInt8}

theorem header_le_rest (h : st.file.rest = c.bytes ++ tail) :
    8 <= st.file.rest.length := by
  rw [h, List.length_append, c.bytes_length]
  omega

theorem chunkStep_of_decodeError {e : ε} (hsized : c.WellSized)
    (hrest : st.file.rest = c.bytes ++ tail)
    (h : c.decodeError dec = some e) :
    chunkStep dec st = .error (.msgPack e) := by
  rw [chunkStep_of_header dec (header_le_rest hrest), headId_chunk hrest,
    headLen_chunk hrest]
  have hdata : ({ st with file := st.file.seekBy 8 } : RiffState).file.rest =
      c.data ++ (c.padding ++ tail) := rest_data_chunk hrest
  rw [readChunk_of_decodeError hsized hdata h]
  rfl

/-- A chunk that decodes takes the loop to the head of the next chunk. -/
theorem chunkStep_absorbs (hsized : c.WellSized)
    (hrest : st.file.rest = c.bytes ++ tail)
    (h : c.decodeError dec = none) :
    exists mid, chunkStep dec st = .ok (some mid) ∧ mid.file.rest = tail ∧
      Absorbed dec (fun id => c.payloadAs id) st mid := by
  have hdata : ({ st with file := st.file.seekBy 8 } : RiffState).file.rest =
      c.data ++ (c.padding ++ tail) := rest_data_chunk hrest
  rcases readChunk_absorbs hsized hdata h with ⟨mid, hmid, hfile, habsorbed⟩
  refine ⟨skipPad c.data.length mid, ?_, ?_, ?_⟩
  · rw [chunkStep_of_header dec (header_le_rest hrest), headId_chunk hrest,
      headLen_chunk hrest, hmid]
    rfl
  · rw [skipPad_file, hfile]
    dsimp only
    rw [Cursor.seekBy_seekBy, Cursor.seekBy_seekBy, <- Nat.add_assoc,
      <- c.bytes_length]
    exact rest_next_chunk hrest
  · unfold skipPad
    split
    · exact ⟨habsorbed.content, habsorbed.summary, habsorbed.plugin,
        habsorbed.controller, habsorbed.pchk⟩
    · exact ⟨habsorbed.content, habsorbed.summary, habsorbed.plugin,
        habsorbed.controller, habsorbed.pchk⟩

end Loop

section Loops

variable {dec : MsgPack ε} {chunks : List Chunk} {st : RiffState}

/-- The loop fails with the error of the first chunk that does not decode. -/
theorem chunkLoop_of_decodeError {e : ε}
    (hsized : forall c, c ∈ chunks -> c.WellSized)
    (hrest : st.file.rest = chunks.flatMap Chunk.bytes)
    (h : chunks.findSome? (Chunk.decodeError dec) = some e) :
    chunkLoop dec st = .error (.msgPack e) := by
  induction chunks generalizing st with
  | nil =>
      cases h
  | cons c rest ih =>
      have hc := hsized c (List.mem_cons_self ..)
      rw [List.flatMap_cons] at hrest
      rw [List.findSome?_cons] at h
      cases hdecode : c.decodeError dec with
      | some e' =>
          rw [hdecode] at h
          cases h
          exact chunkLoop_of_error (chunkStep_of_decodeError hc hrest hdecode)
      | none =>
          rw [hdecode] at h
          rcases chunkStep_absorbs hc hrest hdecode with ⟨mid, hstep, hmid, _⟩
          rw [chunkLoop_of_step hstep]
          apply ih ?_ hmid h
          intro d hd
          exact hsized d (List.mem_cons_of_mem c hd)

/-- The loop absorbs chunks that all decode, and ends with the file. -/
theorem chunkLoop_absorbs
    (hsized : forall c, c ∈ chunks -> c.WellSized)
    (hrest : st.file.rest = chunks.flatMap Chunk.bytes)
    (h : chunks.findSome? (Chunk.decodeError dec) = none) :
    exists st', chunkLoop dec st = .ok st' ∧
      Absorbed dec (fun id => lastPayload id chunks) st st' := by
  induction chunks generalizing st with
  | nil =>
      have hend : st.file.rest.length < 4 := by
        rw [hrest]
        decide
      exact ⟨st, chunkLoop_of_break (chunkStep_of_end dec hend),
        ⟨rfl, rfl, rfl, rfl, rfl⟩⟩
  | cons c rest ih =>
      have hc := hsized c (List.mem_cons_self ..)
      rw [List.flatMap_cons] at hrest
      rw [List.findSome?_cons] at h
      cases hdecode : c.decodeError dec with
      | some e' =>
          rw [hdecode] at h
          cases h
      | none =>
          rw [hdecode] at h
          rcases chunkStep_absorbs hc hrest hdecode with
            ⟨mid, hstep, hmid, habsorbed⟩
          have hrestSized : forall d, d ∈ rest -> d.WellSized := fun d hd =>
            hsized d (List.mem_cons_of_mem c hd)
          rcases ih hrestSized hmid h with ⟨st', hloop, habsorbed'⟩
          refine ⟨st', (chunkLoop_of_step hstep).trans hloop, ?_⟩
          simpa only [lastPayload_cons] using habsorbed.trans habsorbed'

end Loops

/-!
## Whole containers
-/

/-- A well-sized container is stored at a path. -/
def StoredAs (files : Files) (path : Path) (chunks : List Chunk) : Prop :=
  (exists total, files path = some (container total chunks)) ∧
    forall c, c ∈ chunks -> c.WellSized

/-- A scanned file gives a preset, its state read back later. -/
def NksFile.Yields (ε : Type) (nks : NksFile) (files : Files)
    (preset : Preset) : Prop :=
  nks.summary = preset.summary ∧ nks.plugin = preset.plugin ∧
    nks.controller = preset.controller ∧
    (nks.readState files : Except (NksError ε) (List UInt8)) =
      .ok preset.state

theorem readMetadata_container (dec : MsgPack ε) {files : Files} {path : Path}
    {total : UInt32} {chunks : List Chunk}
    (h : files path = some (container total chunks)) :
    exists f : File, f.content = container total chunks ∧
      f.rest = chunks.flatMap Chunk.bytes ∧
      readMetadata dec files path =
        (chunkLoop dec { file := f } >>= assemble path) := by
  have hrest : (Cursor.start (container total chunks)).rest =
      magicRiff ++ (leBytes 4 total.toNat ++
        (magicNiks ++ chunks.flatMap Chunk.bytes)) := rfl
  refine ⟨(Cursor.start (container total chunks)).seekBy 12, rfl, ?_, ?_⟩
  · rw [Cursor.rest_seekBy, hrest]
    rfl
  · unfold readMetadata
    rw [h]
    dsimp only
    rw [readHeader_magics (leBytes_length 4 _) hrest, Fallible.ok_bind]

theorem RangeHolds.le_length {content payload : List UInt8} {offset len : Nat}
    (h : RangeHolds content payload (offset, len)) :
    len <= content.length - offset := by
  rcases h with ⟨hlen, hbytes⟩
  have htake : ((content.drop offset).take len).length = len := by
    rw [hbytes, <- hlen]
  rw [List.length_take, List.length_drop] at htake
  omega

/-- The state read back from the range the loop recorded. -/
theorem readState_of_filled {files : Files} {nks : NksFile}
    {content : List UInt8} {found : Option (List UInt8)}
    {pchk : Option (Nat × Nat)} (hfile : files nks.path = some content)
    (hfilled : Filled (RangeHolds content) found none pchk)
    (hrange : (nks.pchkOffset, nks.pchkLen) = pchk.getD (0, 0)) :
    (nks.readState files : Except (NksError ε) (List UInt8)) =
      .ok (found.getD []) := by
  rw [NksFile.readState_ok_iff hfile]
  cases found with
  | none =>
      have hnone : pchk = none := hfilled
      rw [hnone] at hrange
      rcases Prod.mk.inj hrange with ⟨hoffset, hlen⟩
      simp [hlen]
  | some payload =>
      rcases hfilled with ⟨range, hholds, hsome⟩
      rw [hsome] at hrange
      have hpair : range = (nks.pchkOffset, nks.pchkLen) := hrange.symm
      rw [hpair] at hholds
      exact ⟨hholds.le_length, hholds.right.symm⟩

theorem scan_of_decodeError {dec : MsgPack ε} {files : Files} {path : Path}
    {chunks : List Chunk} {e : ε} (hstored : StoredAs files path chunks)
    (h : chunks.findSome? (Chunk.decodeError dec) = some e) :
    NksFile.scan dec files path = .error (.msgPack e) := by
  rcases hstored with ⟨⟨total, hfile⟩, hsized⟩
  rcases readMetadata_container dec hfile with ⟨f, _, hrest, hread⟩
  have hloop : chunkLoop dec { file := f } = .error (.msgPack e) :=
    chunkLoop_of_decodeError hsized hrest h
  unfold NksFile.scan
  rw [hread, hloop]
  rfl

/-- A scan of chunks that all decode is the final check of the loop's
variables, which hold the last payloads. -/
theorem scan_of_absorbed {dec : MsgPack ε} {files : Files} {path : Path}
    {chunks : List Chunk} (hstored : StoredAs files path chunks)
    (h : chunks.findSome? (Chunk.decodeError dec) = none) :
    exists f st, files path = some f.content ∧
      NksFile.scan dec files path = assemble path st ∧
      Absorbed dec (fun id => lastPayload id chunks) { file := f } st := by
  rcases hstored with ⟨⟨total, hfile⟩, hsized⟩
  rcases readMetadata_container dec hfile with ⟨f, hcontent, hrest, hread⟩
  have hloop : exists st, chunkLoop dec { file := f } = .ok st ∧
      Absorbed dec (fun id => lastPayload id chunks) { file := f } st :=
    chunkLoop_absorbs hsized hrest h
  rcases hloop with ⟨st, hst, habsorbed⟩
  refine ⟨f, st, ?_, ?_, habsorbed⟩
  · rw [hcontent]
    exact hfile
  · unfold NksFile.scan
    rw [hread, hst]
    rfl

/-- The three outcomes of a scan of chunks that all decode. -/
theorem scan_of_decodes {dec : MsgPack ε} {files : Files} {path : Path}
    {chunks : List Chunk} (hstored : StoredAs files path chunks)
    (h : chunks.findSome? (Chunk.decodeError dec) = none) :
    match decodeContainer dec chunks with
    | .error e => NksFile.scan dec files path = .error e
    | .ok preset => exists nks, NksFile.scan dec files path = .ok nks ∧
        nks.Yields ε files preset := by
  rcases scan_of_absorbed hstored h with ⟨f, st, hfile, hscan, habsorbed⟩
  have hsummary := habsorbed.summary
  have hplugin := habsorbed.plugin
  have hcontroller := habsorbed.controller
  unfold decodeContainer
  rw [h, hscan]
  cases hnisi : lastPayload idNisi chunks with
  | none =>
      rw [hnisi] at hsummary
      have hnone : st.summary = none := hsummary
      simp [assemble, hnone]
  | some nisi =>
      rw [hnisi] at hsummary
      rcases hsummary with ⟨summary, hdecode, hsummary⟩
      cases hplid : lastPayload idPlid chunks with
      | none =>
          rw [hplid] at hplugin
          have hnone : st.plugin = none := hplugin
          simp [assemble, hsummary, hnone]
      | some plid =>
          rw [hplid] at hplugin
          rcases hplugin with ⟨plugin, hdecode', hplugin⟩
          simp only [hdecode, hdecode', Fallible.mapError_ok, Fallible.ok_bind]
          refine ⟨_, by simp only [assemble, hsummary, hplugin]; rfl,
            rfl, rfl, ?_, ?_⟩
          · cases hnica : lastPayload idNica chunks with
            | none =>
                rw [hnica] at hcontroller
                exact hcontroller
            | some nica =>
                rw [hnica] at hcontroller
                rcases hcontroller with ⟨controller, hvalue, hcontroller⟩
                rw [hvalue] at hcontroller
                exact hcontroller
          · exact readState_of_filled hfile habsorbed.pchk rfl

/-!
## Independence of the order of kinds
-/

/-- The data of the chunks of one kind, in order. -/
def dataOf (id : List UInt8) (chunks : List Chunk) : List (List UInt8) :=
  (chunks.filter fun c => c.id = id).map Chunk.data

/-- The chunks that are decoded, with their kinds, in order. -/
def decodedOf (chunks : List Chunk) : List (List UInt8 × List UInt8) :=
  (chunks.filter fun c => c.id = idNisi ∨ c.id = idPlid).map fun c =>
    (c.id, c.data)

/-- The same data for each known kind; the kinds may interleave in another way,
and other chunks are free. -/
def SameKnown (a b : List Chunk) : Prop :=
  forall id, id ∈ [idNisi, idPlid, idNica, idPchk] -> dataOf id a = dataOf id b

theorem lastPayload_eq_dataOf (id : List UInt8) (chunks : List Chunk) :
    lastPayload id chunks = (dataOf id chunks).getLast?.map (List.drop 4) := by
  unfold lastPayload dataOf
  rw [findRev?_eq_getLast?, List.getLast?_map, Option.map_map]
  rfl

theorem mem_dataOf_iff {id d : List UInt8} {chunks : List Chunk} :
    d ∈ dataOf id chunks <-> exists c, c ∈ chunks ∧ c.id = id ∧ c.data = d := by
  simp [dataOf, and_assoc]

theorem decodeError_eq_none_iff {dec : MsgPack ε} {c : Chunk} :
    c.decodeError dec = none <->
      (c.id = idNisi -> exists s, dec.summary (c.data.drop 4) = .ok s) ∧
        (c.id = idPlid -> exists q, dec.plugin (c.data.drop 4) = .ok q) := by
  unfold Chunk.decodeError decodeErrorOf Chunk.payload
  by_cases hnisi : c.id = idNisi
  · cases hdecode : dec.summary (c.data.drop 4) with
    | error e =>
        simp [hnisi]
    | ok s =>
        simp [hnisi, idNisi, idPlid]
  · by_cases hplid : c.id = idPlid
    · cases hdecode : dec.plugin (c.data.drop 4) with
      | error e =>
          simp [hplid, idNisi, idPlid]
      | ok s =>
          simp [hplid, idNisi, idPlid]
    · simp [hnisi, hplid]

theorem findSome?_decodeError_eq_none_iff {dec : MsgPack ε}
    {chunks : List Chunk} :
    chunks.findSome? (Chunk.decodeError dec) = none <->
      (forall d, d ∈ dataOf idNisi chunks ->
        exists s, dec.summary (d.drop 4) = .ok s) ∧
        (forall d, d ∈ dataOf idPlid chunks ->
          exists q, dec.plugin (d.drop 4) = .ok q) := by
  rw [List.findSome?_eq_none_iff]
  constructor
  · intro h
    constructor
    · intro d hd
      rcases mem_dataOf_iff.mp hd with ⟨c, hc, hid, hdata⟩
      rw [<- hdata]
      exact (decodeError_eq_none_iff.mp (h c hc)).left hid
    · intro d hd
      rcases mem_dataOf_iff.mp hd with ⟨c, hc, hid, hdata⟩
      rw [<- hdata]
      exact (decodeError_eq_none_iff.mp (h c hc)).right hid
  · intro h c hc
    apply decodeError_eq_none_iff.mpr
    constructor
    · intro hid
      exact h.left c.data (mem_dataOf_iff.mpr ⟨c, hc, hid, rfl⟩)
    · intro hid
      exact h.right c.data (mem_dataOf_iff.mpr ⟨c, hc, hid, rfl⟩)

theorem findSome?_decodeError_eq_decodedOf (dec : MsgPack ε)
    (chunks : List Chunk) :
    chunks.findSome? (Chunk.decodeError dec) =
      (decodedOf chunks).findSome? fun p =>
        decodeErrorOf dec p.1 (p.2.drop 4) := by
  induction chunks with
  | nil =>
      rfl
  | cons c rest ih =>
      by_cases hdecoded : c.id = idNisi ∨ c.id = idPlid
      · have hcons : decodedOf (c :: rest) = (c.id, c.data) :: decodedOf rest := by
          simp [decodedOf, hdecoded]
        rw [hcons, List.findSome?_cons, List.findSome?_cons, ih]
        rfl
      · have hcons : decodedOf (c :: rest) = decodedOf rest := by
          simp [decodedOf, hdecoded]
        have hnone : c.decodeError dec = none := by
          rw [not_or] at hdecoded
          simp [Chunk.decodeError, decodeErrorOf, hdecoded]
        rw [hcons, List.findSome?_cons, hnone, ih]

theorem SameKnown.lastPayload_eq {a b : List Chunk} (h : SameKnown a b)
    {id : List UInt8} (hid : id ∈ [idNisi, idPlid, idNica, idPchk]) :
    lastPayload id a = lastPayload id b := by
  rw [lastPayload_eq_dataOf, lastPayload_eq_dataOf, h id hid]

theorem SameKnown.decodes_iff {dec : MsgPack ε} {a b : List Chunk}
    (h : SameKnown a b) :
    a.findSome? (Chunk.decodeError dec) = none <->
      b.findSome? (Chunk.decodeError dec) = none := by
  rw [findSome?_decodeError_eq_none_iff, findSome?_decodeError_eq_none_iff,
    h idNisi (by simp), h idPlid (by simp)]

theorem SameKnown.decodeContainer_eq {dec : MsgPack ε} {a b : List Chunk}
    (h : SameKnown a b)
    (ha : a.findSome? (Chunk.decodeError dec) = none) :
    decodeContainer dec a = decodeContainer dec b := by
  unfold decodeContainer
  rw [ha, h.decodes_iff.mp ha, h.lastPayload_eq (by simp),
    h.lastPayload_eq (by simp), h.lastPayload_eq (by simp),
    h.lastPayload_eq (by simp)]

theorem lastPayload_mem {id p : List UInt8} {chunks : List Chunk}
    (h : lastPayload id chunks = some p) :
    exists d, d ∈ dataOf id chunks ∧ p = d.drop 4 := by
  rw [lastPayload_eq_dataOf, Option.map_eq_some_iff] at h
  rcases h with ⟨d, hlast, hd⟩
  exact ⟨d, List.mem_of_getLast? hlast, hd.symm⟩

/-- Chunks that all decode can only lack a required chunk. -/
theorem missingChunk_of_decodes {dec : MsgPack ε} {chunks : List Chunk}
    {e : NksError ε} (h : chunks.findSome? (Chunk.decodeError dec) = none)
    (herror : decodeContainer dec chunks = .error e) :
    exists id, e = .missingChunk id := by
  rcases findSome?_decodeError_eq_none_iff.mp h with ⟨hsummary, hplugin⟩
  unfold decodeContainer at herror
  rw [h] at herror
  dsimp only at herror
  split at herror
  · cases herror
    exact ⟨_, rfl⟩
  · cases herror
    exact ⟨_, rfl⟩
  · rename_i nisi plid hnisi hplid
    rcases lastPayload_mem hnisi with ⟨d, hd, hpayload⟩
    rcases hsummary d hd with ⟨s, hs⟩
    rcases lastPayload_mem hplid with ⟨d', hd', hpayload'⟩
    rcases hplugin d' hd' with ⟨q, hq⟩
    rw [hpayload, hpayload', hs, hq] at herror
    simp at herror

theorem scan_container (dec : MsgPack ε) {files : Files} {path : Path}
    {chunks : List Chunk} (hstored : StoredAs files path chunks) :
    match decodeContainer dec chunks with
    | .error e => NksFile.scan dec files path = .error e
    | .ok preset => exists nks, NksFile.scan dec files path = .ok nks ∧
        nks.Yields ε files preset := by
  cases h : chunks.findSome? (Chunk.decodeError dec) with
  | none =>
      exact scan_of_decodes hstored h
  | some e =>
      unfold decodeContainer
      rw [h]
      exact scan_of_decodeError hstored h

/-- A file written as a list of chunks is read as `decodeContainer` says, and
as any other file with the same data of each known kind. -/
theorem container_round_trip (dec : MsgPack ε) (files : Files) (path : Path)
    (chunks : List Chunk) (hstored : StoredAs files path chunks) :
    (match decodeContainer dec chunks with
      | .error e => NksFile.scan dec files path = .error e
      | .ok preset => exists nks, NksFile.scan dec files path = .ok nks ∧
          nks.Yields ε files preset) ∧
      forall path' chunks', StoredAs files path' chunks' ->
        SameKnown chunks chunks' ->
          (exists e e', NksFile.scan dec files path = .error (.msgPack e) ∧
            NksFile.scan dec files path' = .error (.msgPack e') ∧
              (decodedOf chunks = decodedOf chunks' -> e = e')) ∨
          (exists id, NksFile.scan dec files path = .error (.missingChunk id) ∧
            NksFile.scan dec files path' = .error (.missingChunk id)) ∨
          exists preset nks nks', NksFile.scan dec files path = .ok nks ∧
            NksFile.scan dec files path' = .ok nks' ∧
              nks.Yields ε files preset ∧ nks'.Yields ε files preset := by
  refine ⟨scan_container dec hstored, ?_⟩
  intro path' chunks' hstored' hsame
  cases h : chunks.findSome? (Chunk.decodeError dec) with
  | some e =>
      cases h' : chunks'.findSome? (Chunk.decodeError dec) with
      | none =>
          rw [hsame.decodes_iff.mpr h'] at h
          cases h
      | some e' =>
          refine Or.inl ⟨e, e', scan_of_decodeError hstored h,
            scan_of_decodeError hstored' h', ?_⟩
          intro horder
          rw [findSome?_decodeError_eq_decodedOf, horder,
            <- findSome?_decodeError_eq_decodedOf, h'] at h
          exact (Option.some.inj h).symm
  | none =>
      have hscan := scan_container dec hstored
      have hscan' := scan_container dec hstored'
      rw [<- hsame.decodeContainer_eq h] at hscan'
      cases hdecode : decodeContainer dec chunks with
      | ok preset =>
          rw [hdecode] at hscan hscan'
          rcases hscan with ⟨nks, hok, hyields⟩
          rcases hscan' with ⟨nks', hok', hyields'⟩
          exact Or.inr (Or.inr ⟨preset, nks, nks', hok, hok', hyields, hyields'⟩)
      | error e =>
          rw [hdecode] at hscan hscan'
          rcases missingChunk_of_decodes h hdecode with ⟨id, hid⟩
          rw [hid] at hscan hscan'
          exact Or.inr (Or.inl ⟨id, hscan, hscan'⟩)

/-- A preset with an unknown chunk that looks like a plugin-state header. -/
def sampleChunks : List Chunk :=
  [{ id := idNisi, data := [1, 0, 0, 0, 0x80], pad := 0
     id_length := rfl, data_length := by decide },
    { id := [0x68, 0x73, 0x69, 0x6e], data := idPchk ++ [9, 0, 0, 0, 1], pad := 0
      id_length := rfl, data_length := by decide },
    { id := idPchk, data := [1, 0, 0, 0, 7, 7], pad := 0
      id_length := rfl, data_length := by decide },
    { id := idPlid, data := [1, 0, 0, 0, 0x80], pad := 0
      id_length := rfl, data_length := by decide }]

def sampleFiles : Files := fun _ => some (container 99 sampleChunks)

theorem sampleChunks_stored : StoredAs sampleFiles ["a.nksf"] sampleChunks := by
  exact ⟨⟨99, rfl⟩, by decide⟩

theorem container_round_trip_sample :
    (exists nks,
      NksFile.scan emptyMapDecoder sampleFiles ["a.nksf"] = .ok nks ∧
        nks.Yields Unit sampleFiles
          { summary := {}, plugin := .unknown, controller := none
            state := [7, 7] }) ∧
      forall path' chunks', StoredAs sampleFiles path' chunks' ->
        SameKnown sampleChunks chunks' ->
          (exists e e', NksFile.scan emptyMapDecoder sampleFiles ["a.nksf"] =
              .error (.msgPack e) ∧
            NksFile.scan emptyMapDecoder sampleFiles path' =
              .error (.msgPack e') ∧
              (decodedOf sampleChunks = decodedOf chunks' -> e = e')) ∨
          (exists id, NksFile.scan emptyMapDecoder sampleFiles ["a.nksf"] =
              .error (.missingChunk id) ∧
            NksFile.scan emptyMapDecoder sampleFiles path' =
              .error (.missingChunk id)) ∨
          exists preset nks nks',
            NksFile.scan emptyMapDecoder sampleFiles ["a.nksf"] = .ok nks ∧
              NksFile.scan emptyMapDecoder sampleFiles path' = .ok nks' ∧
                nks.Yields Unit sampleFiles preset ∧
                  nks'.Yields Unit sampleFiles preset :=
  container_round_trip emptyMapDecoder sampleFiles ["a.nksf"] sampleChunks
    sampleChunks_stored

end Nks
end OpenMk3
