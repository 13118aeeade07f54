import OpenMk3.Dext.Ring
import OpenMk3.Library.Buffers
import OpenMk3.Library.Words

/-!
# Frames of the client

`DispatchHidOutReport` and `DispatchBulkOut` on a buffer that the client of the
driver extension fills as it likes, and the copy that `SubmitHidOut` and
`SubmitBulkOut` make of the payload.  Every access to the buffer and to a slot
is one that may be out of range; none is.
-/

namespace OpenMk3
namespace Dext

open Library

def kIOReturnUnsupported : KernReturn := 0xe00002c7

def kIOReturnNoMemory : KernReturn := 0xe00002bd

def hidReportMax : UInt32 := 512

def bulkFrameMax : UInt32 := 524288

def sizeofUint32 : UInt64 := 4

/-- A buffer of the client, inline or mapped. -/
structure UserBuffer where
  bytes : List UInt8
  sized : bytes.length < 2 ^ 64

namespace UserBuffer

def inLen (b : UserBuffer) : UInt64 := UInt64.ofNat b.bytes.length

/-- `memcpy` of a `uint32_t`; nothing when it is not inside the buffer. -/
def load? (b : UserBuffer) (offset : Nat) : Option UInt32 :=
  (slice? b.bytes offset (offset + 4)).map fun word => (leNat word).toUInt32

end UserBuffer

/-- The arguments of a submission: the payload is `length` bytes of the client's
buffer from `offset` on. -/
structure Submission where
  offset : Nat
  length : UInt32
  seq : UInt32 := 0
deriving DecidableEq

/-!
## Dispatch
-/

/-- What a dispatch function returns by itself, or the call of the transport
that it makes; nothing when it reads outside the buffer. -/
abbrev Dispatched : Type := Option (Except KernReturn Submission)

def dispatchHidOutReport (selfNull : Bool) (structureInput : Option UserBuffer)
    (transportNull : Bool) : Dispatched :=
  match selfNull, structureInput with
  | true, _ | _, none => some (.error kIOReturnBadArgument)
  | false, some input =>
      if transportNull then some (.error kIOReturnUnsupported)
      else if input.inLen < sizeofUint32 then some (.error kIOReturnBadArgument)
      else do
        let length <- input.load? 0
        if length = 0 ∨ length > hidReportMax ∨
            length.toUInt64 + sizeofUint32 > input.inLen then
          some (.error kIOReturnBadArgument)
        else some (.ok { offset := 4, length := length })

/-- The structure input of a bulk frame. -/
inductive BulkInput where
  | missing
  -- `none` for a null pointer.
  | inline (bytes : Option UserBuffer)
  -- `none` where there is no mapping.
  | mapped (map : Option (Option UserBuffer))

/-- The checks of `DispatchBulkOut` on the bytes of a frame. -/
def dispatchFrame (inBytes : Option UserBuffer) : Dispatched :=
  match inBytes with
  | none => some (.error kIOReturnBadArgument)
  | some input =>
      if input.inLen ≥ 2 * sizeofUint32 then do
        let length <- input.load? 0
        let seq <- input.load? 4
        if length > 0 ∧ length ≤ bulkFrameMax ∧
            length.toUInt64 + 2 * sizeofUint32 ≤ input.inLen then
          some (.ok { offset := 8, length := length, seq := seq })
        else some (.error kIOReturnBadArgument)
      else some (.error kIOReturnBadArgument)

def dispatchBulkOut (selfNull transportNull : Bool) (input : BulkInput) :
    Dispatched :=
  if selfNull then some (.error kIOReturnBadArgument)
  else if transportNull then some (.error kIOReturnUnsupported)
  else
    match input with
    | .missing => some (.error kIOReturnBadArgument)
    | .inline inBytes => dispatchFrame inBytes
    | .mapped none => some (.error kIOReturnNoMemory)
    | .mapped (some inBytes) => dispatchFrame inBytes

/-!
## Submission
-/

/-- The `memcpy` of a payload into a slot. -/
def memcpy? {size : Nat} (slot : Vector UInt8 size) (b : UserBuffer)
    (call : Submission) : Option (List UInt8) := do
  let payload <- slice? b.bytes call.offset (call.offset + call.length.toNat)
  copySlice? slot.toList 0 call.length.toNat payload

/-- `SubmitHidOut` and `SubmitBulkOut` up to the transfer: the bytes that are
sent.  `stop` is what the call returns when it ends between its check of the
length and the copy. -/
def submitOut? {size : Nat} (slot : Vector UInt8 size) (stop : Option KernReturn)
    (b : UserBuffer) (call : Submission) :
    Option (Except KernReturn (List UInt8)) :=
  if call.length.toNat = 0 ∨ call.length.toNat > size then
    some (.error kIOReturnBadArgument)
  else
    match stop with
    | some ret => some (.error ret)
    | none => do
        let buf <- memcpy? slot b call
        some (.ok (buf.take call.length.toNat))

def submitHidOut (slot : Vector UInt8 hidOutBufferSize)
    (stop : Option KernReturn) (b : UserBuffer) (call : Submission) :
    Option (Except KernReturn (List UInt8)) :=
  submitOut? slot stop b call

def submitBulkOut (slot : Vector UInt8 displaySlotSize)
    (stop : Option KernReturn) (b : UserBuffer) (call : Submission) :
    Option (Except KernReturn (List UInt8)) :=
  submitOut? slot stop b call

/-!
## Lengths
-/

namespace UserBuffer

variable {b : UserBuffer}

theorem inLen_toNat (b : UserBuffer) : b.inLen.toNat = b.bytes.length :=
  UInt64.toNat_ofNat_of_lt' b.sized

/-- A 32-bit length and a prefix make no more than 64 bits. -/
theorem sum_toNat (length : UInt32) {size : UInt64} (hsize : size.toNat < 2 ^ 32) :
    (length.toUInt64 + size).toNat = length.toNat + size.toNat := by
  have hlength := length.toNat_lt
  rw [UInt64.toNat_add, UInt32.toNat_toUInt64, Nat.mod_eq_of_lt (by omega)]

theorem load?_of_le {offset : Nat} (h : offset + 4 ≤ b.bytes.length) :
    b.load? offset = some (leNat ((b.bytes.drop offset).take 4)).toUInt32 := by
  rw [load?, slice?_of_le (Nat.le_add_right _ _) h, Nat.add_sub_cancel_left]
  rfl

/-- A count behind `front` is loaded as it was stored. -/
theorem load?_append (front : List UInt8) {rest : List UInt8} {n : Nat}
    (hn : n < 2 ^ 32) (h : b.bytes = front ++ (leBytes 4 n ++ rest)) :
    b.load? front.length = some n.toUInt32 := by
  have hlen : front.length + 4 ≤ b.bytes.length := by
    rw [h, List.length_append, List.length_append, leBytes_length]
    omega
  rw [load?_of_le hlen, h, List.drop_left' rfl, List.take_left' (leBytes_length 4 n),
    leNat_leBytes hn]

end UserBuffer

/-- The payload of a submission starts right behind a prefix, lies inside the
buffer and fits a slot. -/
structure Inside (prefixLen size : Nat) (b : UserBuffer) (call : Submission) :
    Prop where
  start : call.offset = prefixLen
  pos : 0 < call.length.toNat
  fits : call.length.toNat ≤ size
  inside : call.offset + call.length.toNat ≤ b.bytes.length

/-- What is sent of a submission that is not stopped. -/
def sent (stop : Option KernReturn) (b : UserBuffer) (call : Submission) :
    Except KernReturn (List UInt8) :=
  match stop with
  | some ret => .error ret
  | none => .ok ((b.bytes.drop call.offset).take call.length.toNat)

theorem submitOut?_of_inside {prefixLen size : Nat} {b : UserBuffer}
    {call : Submission} (h : Inside prefixLen size b call)
    (slot : Vector UInt8 size) (stop : Option KernReturn) :
    submitOut? slot stop b call = some (sent stop b call) := by
  have hpos := h.pos
  have hfits := h.fits
  have hinside := h.inside
  have hcheck : ¬ (call.length.toNat = 0 ∨ call.length.toNat > size) := by
    omega
  unfold submitOut?
  rw [if_neg hcheck]
  cases stop with
  | some ret =>
      rfl
  | none =>
      have hpayload := slice?_of_le (Nat.le_add_right _ _) hinside
      have hlen : ((b.bytes.drop call.offset).take call.length.toNat).length =
          call.length.toNat := by
        rw [List.length_take, List.length_drop]
        omega
      unfold sent
      rw [Nat.add_sub_cancel_left] at hpayload
      generalize (b.bytes.drop call.offset).take call.length.toNat = payload
        at hpayload hlen ⊢
      have hroom : payload.length ≤ slot.toList.length := by
        rw [hlen, slot.length_toList]
        exact hfits
      have hcopy := copySlice?_append [] slot.toList hroom
      rw [hlen] at hcopy
      simp only [List.nil_append, List.length_nil, Nat.zero_add] at hcopy
      simp only [memcpy?, hpayload, hcopy, Option.bind_eq_bind, Option.bind_some,
        List.take_left' hlen]

/-!
## Dispatched payloads
-/

/-- What the checks of a dispatch function amount to. -/
theorem inside_iff (b : UserBuffer) (length seq max : UInt32) {size : UInt64}
    (hsize : size.toNat < 2 ^ 32) :
    Inside size.toNat max.toNat b
        { offset := size.toNat, length := length, seq := seq } <->
      length > 0 ∧ length ≤ max ∧ length.toUInt64 + size ≤ b.inLen := by
  rw [gt_iff_lt, UInt32.lt_iff_toNat_lt, UInt32.le_iff_toNat_le,
    UInt64.le_iff_toNat_le, UserBuffer.sum_toNat length hsize, b.inLen_toNat,
    Nat.add_comm]
  constructor
  · intro h
    exact ⟨h.pos, h.fits, h.inside⟩
  · rintro ⟨hpos, hfits, hinside⟩
    exact ⟨rfl, hpos, hfits, hinside⟩

theorem dispatchHidOutReport_spec (selfNull : Bool) (input : Option UserBuffer)
    (transportNull : Bool) :
    exists r, dispatchHidOutReport selfNull input transportNull = some r ∧
      forall call, r = .ok call ->
        exists b, input = some b ∧ Inside 4 hidOutBufferSize b call := by
  unfold dispatchHidOutReport
  split
  · exact ⟨_, rfl, nofun⟩
  · exact ⟨_, rfl, nofun⟩
  · next b =>
      split_ifs with htransport hshort
      · exact ⟨_, rfl, nofun⟩
      · exact ⟨_, rfl, nofun⟩
      · have h4 : 0 + 4 ≤ b.bytes.length := by
          rw [UInt64.lt_iff_toNat_lt, b.inLen_toNat] at hshort
          exact Nat.le_of_not_lt hshort
        simp only [UserBuffer.load?_of_le h4, Option.bind_eq_bind, Option.bind_some]
        split_ifs with hlength
        · exact ⟨_, rfl, nofun⟩
        · refine ⟨_, rfl, ?_⟩
          rintro call ⟨⟩
          simp only [not_or, gt_iff_lt, UInt32.not_lt, UInt64.not_lt] at hlength
          have hwithin : sizeofUint32.toNat < 2 ^ 32 := by
            decide
          refine ⟨b, rfl, (inside_iff b _ 0 hidReportMax hwithin).mpr ?_⟩
          exact ⟨UInt32.pos_iff_ne_zero.mpr hlength.left, hlength.right⟩

theorem dispatchFrame_spec (inBytes : Option UserBuffer) :
    exists r, dispatchFrame inBytes = some r ∧
      forall call, r = .ok call ->
        exists b, inBytes = some b ∧ Inside 8 displaySlotSize b call := by
  unfold dispatchFrame
  cases inBytes with
  | none =>
      exact ⟨_, rfl, nofun⟩
  | some b =>
      simp only
      split_ifs with hroom
      · have h8 : 4 + 4 ≤ b.bytes.length := by
          rw [ge_iff_le, UInt64.le_iff_toNat_le, b.inLen_toNat] at hroom
          exact hroom
        have h4 : 0 + 4 ≤ b.bytes.length := Nat.le_trans (by decide) h8
        simp only [UserBuffer.load?_of_le h4, UserBuffer.load?_of_le h8,
          Option.bind_eq_bind, Option.bind_some]
        split_ifs with hchecks
        · refine ⟨_, rfl, ?_⟩
          rintro call ⟨⟩
          have hwithin : (2 * sizeofUint32).toNat < 2 ^ 32 := by
            decide
          exact ⟨b, rfl, (inside_iff b _ _ bulkFrameMax hwithin).mpr hchecks⟩
        · exact ⟨_, rfl, nofun⟩
      · exact ⟨_, rfl, nofun⟩

theorem dispatchBulkOut_spec (selfNull transportNull : Bool) (input : BulkInput) :
    exists r, dispatchBulkOut selfNull transportNull input = some r ∧
      forall call, r = .ok call ->
        exists b, (input = .inline (some b) ∨ input = .mapped (some (some b))) ∧
          Inside 8 displaySlotSize b call := by
  unfold dispatchBulkOut
  split_ifs with hself htransport
  · exact ⟨_, rfl, nofun⟩
  · exact ⟨_, rfl, nofun⟩
  · cases input with
    | missing =>
        exact ⟨_, rfl, nofun⟩
    | inline inBytes =>
        rcases dispatchFrame_spec inBytes with ⟨r, hr, hcall⟩
        refine ⟨r, hr, fun call h => ?_⟩
        rcases hcall call h with ⟨b, rfl, hinside⟩
        exact ⟨b, Or.inl rfl, hinside⟩
    | mapped map =>
        cases map with
        | none =>
            exact ⟨_, rfl, nofun⟩
        | some inBytes =>
            rcases dispatchFrame_spec inBytes with ⟨r, hr, hcall⟩
            refine ⟨r, hr, fun call h => ?_⟩
            rcases hcall call h with ⟨b, rfl, hinside⟩
            exact ⟨b, Or.inr rfl, hinside⟩

/-!
## Framed payloads
-/

/-- A payload behind a prefix, with whatever follows. -/
theorem inside_of_append {b : UserBuffer} {front payload tail : List UInt8}
    {size : Nat} (seq : UInt32) (hbytes : b.bytes = front ++ (payload ++ tail))
    (hpos : 1 ≤ payload.length) (hle : payload.length ≤ size)
    (hword : payload.length < 2 ^ 32) :
    let call : Submission :=
      { offset := front.length, length := payload.length.toUInt32, seq := seq }
    Inside front.length size b call ∧ sent none b call = .ok payload := by
  intro call
  have hlength : call.length.toNat = payload.length := toUInt32_toNat hword
  refine ⟨⟨rfl, by omega, by omega, ?_⟩, ?_⟩
  · rw [hlength, hbytes, List.length_append, List.length_append]
    show front.length + payload.length ≤ _
    omega
  · rw [sent, hlength, hbytes]
    show Except.ok (((front ++ (payload ++ tail)).drop front.length).take
      payload.length) = _
    rw [List.drop_left' rfl, List.take_left' rfl]

theorem dispatchHidOutReport_frame {b : UserBuffer} {payload tail : List UInt8}
    (hbytes : b.bytes = leBytes 4 payload.length ++ (payload ++ tail))
    (hpos : 1 ≤ payload.length) (hle : payload.length ≤ 512) :
    exists call, dispatchHidOutReport false (some b) false = some (.ok call) ∧
      call.seq = 0 ∧ sent none b call = .ok payload := by
  have hword : payload.length < 2 ^ 32 := Nat.lt_of_le_of_lt hle (by decide)
  rcases inside_of_append 0 hbytes hpos hle hword with ⟨hinside, hsent⟩
  rw [leBytes_length] at hinside hsent
  have hload : b.load? 0 = some payload.length.toUInt32 :=
    UserBuffer.load?_append [] hword hbytes
  have hwithin : sizeofUint32.toNat < 2 ^ 32 := by
    decide
  rcases (inside_iff b _ 0 hidReportMax hwithin).mp hinside with
    ⟨hgt, hmax, hfits⟩
  have hshort : ¬ b.inLen < sizeofUint32 := by
    have hin : 4 + payload.length.toUInt32.toNat ≤ b.bytes.length := hinside.inside
    rw [UInt64.lt_iff_toNat_lt, b.inLen_toNat]
    exact Nat.not_lt_of_le (Nat.le_of_add_right_le hin)
  have hchecks : ¬ (payload.length.toUInt32 = 0 ∨
      payload.length.toUInt32 > hidReportMax ∨
      payload.length.toUInt32.toUInt64 + sizeofUint32 > b.inLen) := by
    simp only [not_or, gt_iff_lt, UInt32.not_lt, UInt64.not_lt]
    exact ⟨UInt32.pos_iff_ne_zero.mp hgt, hmax, hfits⟩
  refine ⟨_, ?_, rfl, hsent⟩
  unfold dispatchHidOutReport
  simp only [Bool.false_eq_true, if_false, if_neg hshort, hload,
    Option.bind_eq_bind, Option.bind_some, if_neg hchecks]

theorem dispatchFrame_frame {b : UserBuffer} {payload tail : List UInt8}
    {seq : UInt32}
    (hbytes : b.bytes =
      leBytes 4 payload.length ++ (leBytes 4 seq.toNat ++ (payload ++ tail)))
    (hpos : 1 ≤ payload.length) (hle : payload.length ≤ 524288) :
    exists call, dispatchFrame (some b) = some (.ok call) ∧
      call.seq = seq ∧ sent none b call = .ok payload := by
  have hword : payload.length < 2 ^ 32 := Nat.lt_of_le_of_lt hle (by decide)
  have hload : b.load? 0 = some payload.length.toUInt32 :=
    UserBuffer.load?_append [] hword hbytes
  have hseq := UserBuffer.load?_append (leBytes 4 payload.length) seq.toNat_lt hbytes
  rw [leBytes_length, Nat.toUInt32_eq, UInt32.ofNat_toNat] at hseq
  rw [← List.append_assoc] at hbytes
  rcases inside_of_append seq hbytes hpos hle hword with ⟨hinside, hsent⟩
  rw [List.length_append, leBytes_length, leBytes_length] at hinside hsent
  have hwithin : (2 * sizeofUint32).toNat < 2 ^ 32 := by
    decide
  have hchecks := (inside_iff b _ seq bulkFrameMax hwithin).mp hinside
  have hroom : b.inLen ≥ 2 * sizeofUint32 := by
    have hin : 8 + payload.length.toUInt32.toNat ≤ b.bytes.length := hinside.inside
    rw [ge_iff_le, UInt64.le_iff_toNat_le, b.inLen_toNat]
    exact Nat.le_of_add_right_le hin
  refine ⟨_, ?_, rfl, hsent⟩
  unfold dispatchFrame
  simp only [if_pos hroom, hload, hseq, Option.bind_eq_bind, Option.bind_some,
    if_pos hchecks]

/-- No frame makes an access outside the client's buffer or outside a slot, and
every payload that is framed with its length is passed on. -/
theorem frames_never_overread :
    (forall (selfNull : Bool) (input : Option UserBuffer) (transportNull : Bool),
      exists r, dispatchHidOutReport selfNull input transportNull = some r ∧
        forall call, r = .ok call ->
          exists b, input = some b ∧ Inside 4 512 b call ∧
            forall slot stop, submitHidOut slot stop b call = some (sent stop b call)) ∧
    (forall (selfNull transportNull : Bool) (input : BulkInput),
      exists r, dispatchBulkOut selfNull transportNull input = some r ∧
        forall call, r = .ok call ->
          exists b, (input = .inline (some b) ∨ input = .mapped (some (some b))) ∧
            Inside 8 524288 b call ∧
            forall slot stop, submitBulkOut slot stop b call = some (sent stop b call)) ∧
    (forall (b : UserBuffer) (payload tail : List UInt8),
      b.bytes = leBytes 4 payload.length ++ (payload ++ tail) ->
      1 ≤ payload.length -> payload.length ≤ 512 ->
      exists call, dispatchHidOutReport false (some b) false = some (.ok call) ∧
        sent none b call = .ok payload) ∧
    (forall (b : UserBuffer) (payload tail : List UInt8) (seq : UInt32),
      b.bytes =
        leBytes 4 payload.length ++ (leBytes 4 seq.toNat ++ (payload ++ tail)) ->
      1 ≤ payload.length -> payload.length ≤ 524288 ->
      forall input, input = .inline (some b) ∨ input = .mapped (some (some b)) ->
        exists call, dispatchBulkOut false false input = some (.ok call) ∧
          call.seq = seq ∧ sent none b call = .ok payload) := by
  refine ⟨?_, ?_, ?_, ?_⟩
  · intro selfNull input transportNull
    rcases dispatchHidOutReport_spec selfNull input transportNull with ⟨r, hr, hcall⟩
    refine ⟨r, hr, fun call h => ?_⟩
    rcases hcall call h with ⟨b, hb, hinside⟩
    exact ⟨b, hb, hinside, fun slot stop => submitOut?_of_inside hinside slot stop⟩
  · intro selfNull transportNull input
    rcases dispatchBulkOut_spec selfNull transportNull input with ⟨r, hr, hcall⟩
    refine ⟨r, hr, fun call h => ?_⟩
    rcases hcall call h with ⟨b, hb, hinside⟩
    exact ⟨b, hb, hinside, fun slot stop => submitOut?_of_inside hinside slot stop⟩
  · intro b payload tail hbytes hpos hle
    rcases dispatchHidOutReport_frame hbytes hpos hle with ⟨call, hcall, -, hsent⟩
    exact ⟨call, hcall, hsent⟩
  · intro b payload tail seq hbytes hpos hle input hinput
    rcases dispatchFrame_frame hbytes hpos hle with ⟨call, hcall, hseq, hsent⟩
    rcases hinput with rfl | rfl
    · exact ⟨call, hcall, hseq, hsent⟩
    · exact ⟨call, hcall, hseq, hsent⟩

end Dext
end OpenMk3
