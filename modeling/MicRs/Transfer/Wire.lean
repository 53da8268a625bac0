import MicRs.Base.Records
import MicRs.Transfer.FileKey
import MicRs.Transfer.Outcome

/-!
# What a device sends

The messages of a download as the protocol lays them out: the file header with
its encrypted key (`IsHonestHeader`), and messages that carry slices
(`CarriesSlices`) in any grouping. The parsers read them back
(`IsHonestHeader.read`, `audioSlicesOf_carries`). `message`, `headerMessage`
and `sliceMessage` build such messages for concrete runs.
-/

namespace MicRs

open Records

/-! ## Messages -/

/-- A message with a success nibble, its kind and what follows the length. -/
def message (success cmdType cmdId : UInt8) (payload : List UInt8) :
    List UInt8 :=
  [0x09, 0xFF, 0x00, 0x00, success, cmdType, cmdId, 0x00, 0x00] ++ payload

@[simp] theorem length_message (success cmdType cmdId : UInt8)
    (payload : List UInt8) :
    (message success cmdType cmdId payload).length = payload.length + 9 := by
  simp [message]

theorem isResponse_message (success cmdType cmdId : UInt8)
    (payload : List UInt8) :
    IsResponse cmdType cmdId (message success cmdType cmdId payload) :=
  ⟨by simp, rfl, rfl⟩

theorem successNibble_message (success cmdType cmdId : UInt8)
    (payload : List UInt8) :
    successNibble (message success cmdType cmdId payload) =
      success &&& 0x0F := rfl

theorem drop_message (success cmdType cmdId : UInt8) (payload : List UInt8) :
    (message success cmdType cmdId payload).drop 9 = payload := rfl

/-! ## The file header -/

variable (C : Ciphers)

/-- A 1A07 message with code 0 that carries the keys of file `fileId`. -/
structure IsHonestHeader (sessionKey : Vector UInt8 32) (fileId : UInt32)
    (fileKey : Vector UInt8 32) (nonce sessionNonce : Vector UInt8 16)
    (data : List UInt8) : Prop where
  length : 97 ≤ data.length
  kind : IsResponse cmdTypeFile cmdFileHeader data
  success : successNibble data = 1
  fileId : (data.drop 9).take 4 = u32ToLeBytes fileId
  nonce : (data.drop 17).take 16 = nonce.toList
  key : (data.drop 33).take 46 =
    aes256Ctr C sessionKey sessionNonce (fileKeyMagic ++ fileKey.toList)
  sessionNonce : (data.drop 79).take 16 = sessionNonce.toList
  code : byteAt data 95 = 0

variable {C} in
theorem IsHonestHeader.isFileHeader {sessionKey fileKey : Vector UInt8 32}
    {fileId : UInt32} {nonce sessionNonce : Vector UInt8 16} {data : List UInt8}
    (h : IsHonestHeader C sessionKey fileId fileKey nonce sessionNonce data) :
    IsFileHeader data :=
  ⟨h.length, h.success⟩

variable {C} in
/-- **The parser finds what the device put into the header.** -/
theorem IsHonestHeader.read {sessionKey fileKey : Vector UInt8 32}
    {fileId : UInt32} {nonce sessionNonce : Vector UInt8 16} {data : List UInt8}
    (h : IsHonestHeader C sessionKey fileId fileKey nonce sessionNonce data) :
    (FileHeader.read data).fileId = fileId ∧
      (FileHeader.read data).nonce = nonce ∧
      (FileHeader.read data).code = 0 ∧
      decryptFileKey C sessionKey (FileHeader.read data).encryptedKey
        (FileHeader.read data).sessionNonce = .ok fileKey := by
  have hlen := h.length
  have hid : (arrayAt 4 data 9).toList = u32ToLeBytes fileId :=
    (toList_arrayAt (by omega)).trans h.fileId
  have hkey : (arrayAt 46 data 33).toList = aes256Ctr C sessionKey sessionNonce
      (fileKeyMagic ++ fileKey.toList) :=
    (toList_arrayAt (by omega)).trans h.key
  have hsession : arrayAt 16 data 79 = sessionNonce :=
    arrayAt_of_field (by omega) h.sessionNonce
  refine ⟨u32FromLeBytes_toLeBytes hid, arrayAt_of_field (by omega) h.nonce,
    h.code, ?_⟩
  rw [FileHeader.read, hsession]
  exact decryptFileKey_wrapped C _ _ hkey

variable {C} in
/-- With an honest header in front a download begins. -/
theorem IsHonestHeader.begins {sessionKey fileKey : Vector UInt8 32}
    {fileId : UInt32} {nonce sessionNonce : Vector UInt8 16} {data : List UInt8}
    (h : IsHonestHeader C sessionKey fileId fileKey nonce sessionNonce data)
    {env : Env} (hsent : env.write = none) {w : World} {rest : List Delivery}
    (hrx : w.rx = .notification data :: rest) :
    Begins C env sessionKey w data rest fileKey where
  sent := hsent
  first := by rw [hrx, firstHeader, if_pos h.kind]
  parses := h.isFileHeader
  code := h.code
  key := h.read.2.2.2

/-- A 1A07 message of 97 bytes. -/
def headerMessage (sessionKey : Vector UInt8 32) (fileId size : UInt32)
    (fileKey : Vector UInt8 32) (nonce sessionNonce : Vector UInt8 16)
    (code : UInt8) : List UInt8 :=
  message 1 cmdTypeFile cmdFileHeader
    (u32ToLeBytes fileId ++ u32ToLeBytes size ++ nonce.toList ++
      aes256Ctr C sessionKey sessionNonce (fileKeyMagic ++ fileKey.toList) ++
      sessionNonce.toList ++ [code, 0])

section HeaderMessage

variable (sessionKey : Vector UInt8 32) (fileId size : UInt32)
  (fileKey : Vector UInt8 32) (nonce sessionNonce : Vector UInt8 16)
  (code : UInt8)

theorem isResponse_headerMessage : IsResponse cmdTypeFile cmdFileHeader
    (headerMessage C sessionKey fileId size fileKey nonce sessionNonce code) :=
  isResponse_message 1 cmdTypeFile cmdFileHeader _

theorem length_headerMessage :
    (headerMessage C sessionKey fileId size fileKey nonce sessionNonce
      code).length = 97 := by
  simp [headerMessage, fileKeyMagic]

theorem isFileHeader_headerMessage : IsFileHeader
    (headerMessage C sessionKey fileId size fileKey nonce sessionNonce code) :=
  ⟨(length_headerMessage C sessionKey fileId size fileKey nonce sessionNonce
    code).ge, (successNibble_message 1 _ _ _).trans (by decide)⟩

theorem headerMessage_code : byteAt (headerMessage C sessionKey fileId size
    fileKey nonce sessionNonce code) 95 = code := by
  apply byteAt_of_append
    (message 1 cmdTypeFile cmdFileHeader
      (u32ToLeBytes fileId ++ u32ToLeBytes size ++ nonce.toList ++
        aes256Ctr C sessionKey sessionNonce (fileKeyMagic ++ fileKey.toList) ++
        sessionNonce.toList)) [0]
  · simp [headerMessage, message]
  · simp [fileKeyMagic]

theorem headerMessage_size : (FileHeader.read (headerMessage C sessionKey fileId
    size fileKey nonce sessionNonce code)).size = size := by
  have hlen : 13 + 4 ≤ (headerMessage C sessionKey fileId size fileKey nonce
      sessionNonce code).length := by
    rw [length_headerMessage]
    decide
  apply u32FromLeBytes_toLeBytes
  rw [toList_arrayAt hlen]
  apply field_of_append (message 1 cmdTypeFile cmdFileHeader (u32ToLeBytes fileId))
  · simp only [headerMessage, message, List.append_assoc]
    rfl
  · simp
  · exact length_u32ToLeBytes size

/-- **The message a device builds is an honest header.** -/
theorem isHonestHeader_headerMessage :
    IsHonestHeader C sessionKey fileId fileKey nonce sessionNonce
      (headerMessage C sessionKey fileId size fileKey nonce sessionNonce 0) := by
  set front := message 1 cmdTypeFile cmdFileHeader [] with hfront
  set key := aes256Ctr C sessionKey sessionNonce
    (fileKeyMagic ++ fileKey.toList) with hkey
  have hlen : key.length = 46 := by simp [hkey, fileKeyMagic]
  have hbytes : headerMessage C sessionKey fileId size fileKey nonce
      sessionNonce 0 = front ++ (u32ToLeBytes fileId ++ (u32ToLeBytes size ++
        (nonce.toList ++ (key ++ (sessionNonce.toList ++ [0, 0]))))) := by
    simp [headerMessage, message, hfront, hkey]
  -- Each field stands behind the ones before it.
  constructor
  case length => exact (length_headerMessage C _ _ _ _ _ _ _).ge
  case kind => exact isResponse_headerMessage C _ _ _ _ _ _ _
  case success => exact (isFileHeader_headerMessage C _ _ _ _ _ _ _).2
  case code => exact headerMessage_code C _ _ _ _ _ _ _
  case fileId => exact field_of_append _ _ _ hbytes rfl (length_u32ToLeBytes fileId)
  case nonce =>
    exact field_of_append (front ++ u32ToLeBytes fileId ++ u32ToLeBytes size)
      nonce.toList (key ++ (sessionNonce.toList ++ [0, 0]))
      (by simp only [hbytes, List.append_assoc]) rfl (by simp)
  case key =>
    exact field_of_append (front ++ u32ToLeBytes fileId ++
      u32ToLeBytes size ++ nonce.toList) key (sessionNonce.toList ++ [0, 0])
      (by simp only [hbytes, List.append_assoc]) (by simp [hfront]) hlen
  case sessionNonce =>
    exact field_of_append (front ++ u32ToLeBytes fileId ++
      u32ToLeBytes size ++ nonce.toList ++ key) sessionNonce.toList [0, 0]
      (by simp only [hbytes, List.append_assoc]) (by simp [hfront, hlen])
      (by simp)

end HeaderMessage

/-! ## Slices -/

/-- A slice on the air: 166 bytes, the last of which nobody reads. -/
structure WireSlice where
  sequenceNumber : UInt32
  flags : UInt8
  chunk : List UInt8
  padding : UInt8
  length_chunk : chunk.length = chunkEncryptedSize

def WireSlice.encode (slice : WireSlice) : List UInt8 :=
  u32ToLeBytes slice.sequenceNumber ++ [slice.flags] ++ slice.chunk ++
    [slice.padding]

/-- What the parser makes of a slice. -/
def WireSlice.parsed (slice : WireSlice) : AudioSlice where
  sequenceNumber := slice.sequenceNumber
  hasMarker := decide (slice.flags &&& 0x01 ≠ 0)
  encryptedChunk := slice.chunk

@[simp] theorem WireSlice.length_encode (slice : WireSlice) :
    slice.encode.length = 166 := by
  simp [WireSlice.encode, slice.length_chunk, chunkEncryptedSize]

/-- A slice is read where its bytes stand. -/
theorem AudioSlice.read_encode {data : List UInt8} (pre : List UInt8)
    {post : List UInt8} {lo : ℕ} {slice : WireSlice}
    (hdata : data = pre ++ (slice.encode ++ post))
    (hpre : pre.length = lo) : AudioSlice.read data lo = slice.parsed := by
  have hbytes : data = pre ++ (u32ToLeBytes slice.sequenceNumber ++
      ([slice.flags] ++ (slice.chunk ++ ([slice.padding] ++ post)))) := by
    simp only [hdata, WireSlice.encode, List.append_assoc]
  have hlen := congrArg List.length hdata
  rw [List.length_append, List.length_append, slice.length_encode, hpre] at hlen
  have hseq : (arrayAt 4 data lo).toList = u32ToLeBytes slice.sequenceNumber :=
    (toList_arrayAt (by omega)).trans
      (field_of_append _ _ _ hbytes hpre (length_u32ToLeBytes _))
  have hflags : byteAt data (lo + 4) = slice.flags :=
    byteAt_of_append (pre ++ u32ToLeBytes slice.sequenceNumber)
      (slice.chunk ++ ([slice.padding] ++ post))
      (by rw [hbytes, List.append_assoc]; rfl) (by simp [hpre])
  have hchunk : (data.drop (lo + 5)).take 160 = slice.chunk :=
    field_of_append (pre ++ u32ToLeBytes slice.sequenceNumber ++ [slice.flags])
      slice.chunk ([slice.padding] ++ post)
      (by simp only [hbytes, List.append_assoc]) (by simp [hpre])
      slice.length_chunk
  rw [AudioSlice.read, u32FromLeBytes_toLeBytes hseq, hflags, hchunk]
  rfl

/-- A 1A08 or 1A12 message that carries slices, with any bytes behind them that
are too few for another one. -/
structure CarriesSlices (slices : List WireSlice) (data : List UInt8) :
    Prop where
  length : 7 ≤ data.length
  cmdType : byteAt data 5 = cmdTypeFile
  cmdId : byteAt data 6 = cmdFileSlice ∨ byteAt data 6 = cmdFileSliceSuppl
  payload : ∃ trailing : List UInt8, trailing.length < 166 ∧
    data.drop 9 = slices.flatMap WireSlice.encode ++ trailing

/-- **The parser reads back the slices of a message**, wherever it is from. -/
theorem audioSlicesOf_encode {slices : List WireSlice}
    {data trailing : List UInt8} (hshort : trailing.length < 166)
    (hdrop : data.drop 9 = slices.flatMap WireSlice.encode ++ trailing) :
    audioSlicesOf data = slices.map WireSlice.parsed := by
  have hcount := count_table WireSlice.length_encode hshort hdrop
  have hlen := congrArg List.length hdrop
  rw [List.length_drop, List.length_append,
    length_flatMap WireSlice.length_encode] at hlen
  apply List.ext_getElem
  · simp [audioSlicesOf, hcount]
  · intro k hk hk'
    rw [List.length_map] at hk'
    -- What stands in front of slice `k`, and what follows it.
    have hrest := drop_table WireSlice.length_encode hk' hdrop
    have hsplit : data = data.take (9 + 166 * k) ++ (slices[k].encode ++
        ((slices.drop (k + 1)).flatMap WireSlice.encode ++ trailing)) := by
      rw [← hrest, List.take_append_drop]
    have hfront : (data.take (9 + 166 * k)).length = 9 + 166 * k := by
      rw [List.length_take]
      omega
    have hread := AudioSlice.read_encode _ hsplit hfront
    simpa [audioSlicesOf] using hread

theorem audioSlicesOf_carries {slices : List WireSlice} {data : List UInt8}
    (h : CarriesSlices slices data) :
    audioSlicesOf data = slices.map WireSlice.parsed := by
  obtain ⟨trailing, hshort, hdrop⟩ := h.payload
  exact audioSlicesOf_encode hshort hdrop

theorem carriesSlices_message {cmdId : UInt8}
    (hid : cmdId = cmdFileSlice ∨ cmdId = cmdFileSliceSuppl)
    (slices : List WireSlice) (trailing : List UInt8)
    (hshort : trailing.length < 166) :
    CarriesSlices slices (message 1 cmdTypeFile cmdId
      (slices.flatMap WireSlice.encode ++ trailing)) where
  length := by rw [length_message]; omega
  cmdType := rfl
  cmdId := hid
  payload := ⟨trailing, hshort, drop_message _ _ _ _⟩

/-- A 1A08 message that carries slices and nothing else. -/
def sliceMessage (slices : List WireSlice) : List UInt8 :=
  message 1 cmdTypeFile cmdFileSlice (slices.flatMap WireSlice.encode)

theorem carriesSlices_sliceMessage (slices : List WireSlice) :
    CarriesSlices slices (sliceMessage slices) := by
  have hcarries := carriesSlices_message (Or.inl rfl) slices [] (by decide)
  rwa [List.append_nil] at hcarries

/-! ## Deliveries -/

theorem classify_carries {slices : List WireSlice} {data : List UInt8}
    (h : CarriesSlices slices data) :
    classifyDelivery (.notification data) =
      .items (slices.map WireSlice.parsed) := by
  have hlen : ¬ (data.length < 7 ∨ byteAt data 5 ≠ cmdTypeFile) := by
    rw [not_or, not_not]
    exact ⟨by have := h.length; omega, h.cmdType⟩
  rw [classifyDelivery, classifyMessage, if_neg hlen, if_pos h.cmdId,
    audioSlicesOf_carries h]

theorem classify_complete {data : List UInt8}
    (h : IsResponse cmdTypeFile cmdFileComplete data) :
    classifyDelivery (.notification data) = .close .complete := by
  obtain ⟨hlen, htype, hid⟩ := h
  have hlong : ¬ data.length < 7 := by omega
  simp [classifyDelivery, classifyMessage, hlong, htype, hid, cmdFileComplete,
    cmdFileSlice, cmdFileSliceSuppl]

/-- Slices in any grouping, then the completion. -/
theorem deliveries_of_carries {done : List UInt8} (rest : List Delivery)
    (hdone : IsResponse cmdTypeFile cmdFileComplete done)
    {batches : List (List WireSlice)} {messages : List (List UInt8)}
    (h : List.Forall₂ CarriesSlices batches messages) :
    deliveredSlices (messages.map .notification ++
        .notification done :: rest) =
      batches.flatten.map WireSlice.parsed ∧
    sliceClosing (messages.map .notification ++ .notification done :: rest) =
      some .complete := by
  induction h with
  | nil =>
      have hclose := classify_complete hdone
      exact ⟨deliveredSlices_cons_close rest hclose,
        sliceClosing_cons_close rest hclose⟩
  | cons hdata _ ih =>
      obtain ⟨hslices, hclose⟩ := ih
      have hitems := classify_carries hdata
      rw [List.map_cons, List.cons_append,
        deliveredSlices_cons_items _ hitems, sliceClosing_cons_items _ hitems,
        hslices, hclose, List.flatten_cons, List.map_append]
      exact ⟨rfl, rfl⟩

end MicRs
