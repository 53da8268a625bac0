import MicRs.Model.Rust

/-!
# `protocol.rs`: the binary protocol

Packet building and response parsing as the source does them, offsets and all.
The parsers run in `Rust`, so an access out of bounds would show as a panic;
the lemmas at the end of each parser say that none happens, and which bytes of
the message a successful parse returns.
-/

namespace MicRs

/-! ## Constants -/

def bleHeaderSize : ℕ := 7

def cmdTypeFile : UInt8 := 0x1A
def cmdTypeEncrypt : UInt8 := 0x2E

def cmdFileHeader : UInt8 := 0x07
def cmdFileSlice : UInt8 := 0x08
def cmdFileComplete : UInt8 := 0x0A
def cmdGetAllFiles : UInt8 := 0x0E
def cmdOpenBtTransport : UInt8 := 0x0F
def cmdDeleteFile : UInt8 := 0x10
def cmdCloseBtTransport : UInt8 := 0x11
def cmdFileSliceSuppl : UInt8 := 0x12

def cmdEncryptKeyExchange : UInt8 := 0x01

def slicePayloadSize : ℕ := 166
def chunkEncryptedSize : ℕ := 160
def fileHeaderMinSize : ℕ := 97
def blocksPerPacket : UInt32 := 10

def hkdfSalt : List UInt8 := [0x01, 0x02, 0x03]
def hkdfInfo : List UInt8 := [0x01, 0x02, 0x03]

/-- `b"soundcored3200"` -/
def fileKeyMagic : List UInt8 :=
  [0x73, 0x6F, 0x75, 0x6E, 0x64, 0x63, 0x6F, 0x72, 0x65, 0x64,
   0x33, 0x32, 0x30, 0x30]

/-! ## Packet building -/

def checksum (data : List UInt8) : UInt8 :=
  data.foldl (fun acc b => acc + b) 0

def buildHeader (cmdType cmdId : UInt8) : List UInt8 :=
  [0x08, 0xEE, 0x00, 0x00, 0x00, cmdType, cmdId]

def buildCommand (cmdType cmdId : UInt8) (payload : List UInt8) : List UInt8 :=
  let totalLen := bleHeaderSize + 2 + payload.length + 1
  let cmd := buildHeader cmdType cmdId ++
    [UInt8.ofNat (totalLen &&& 0xFF), UInt8.ofNat ((totalLen >>> 8) &&& 0xFF)] ++
    payload
  cmd ++ [checksum cmd]

/-- A command is nine bytes, its payload and the checksum. -/
theorem buildCommand_payload (cmdType cmdId : UInt8) (payload : List UInt8) :
    ∃ front last, front.length = 9 ∧
      buildCommand cmdType cmdId payload = front ++ (payload ++ [last]) := by
  simp only [buildCommand, List.append_assoc]
  rw [← List.append_assoc (buildHeader cmdType cmdId)]
  exact ⟨_, _, rfl, rfl⟩

/-- Request file header (1A07). -/
def fileHeaderRequest (fileId offset : UInt32) : List UInt8 :=
  buildCommand cmdTypeFile cmdFileHeader
    (u32ToLeBytes offset ++ u32ToLeBytes fileId ++ [0x00])

/-- Delete file command (1A10). -/
def deleteFileCommand (fileId : UInt32) : List UInt8 :=
  buildCommand cmdTypeFile cmdDeleteFile (u32ToLeBytes fileId)

/-- Request file list (1A0E). -/
def fileListRequest (page : UInt16) : List UInt8 :=
  buildCommand cmdTypeFile cmdGetAllFiles (u16ToLeBytes page)

/-- ECDH public key exchange (2E01). -/
def ecdhPubkeyCommand (pubkey : List UInt8) : List UInt8 :=
  buildCommand cmdTypeEncrypt cmdEncryptKeyExchange pubkey

def openBtTransport : List UInt8 :=
  buildCommand cmdTypeFile cmdOpenBtTransport [0x00]

def closeBtTransport : List UInt8 :=
  buildCommand cmdTypeFile cmdCloseBtTransport [0x00]

/-! ## Response header -/

structure ResponseHeader where
  cmdType : UInt8
  cmdId : UInt8
  successFlag : UInt8
  typeVariant : UInt8
deriving DecidableEq, Repr

def parseResponse (data : List UInt8) : Rust (Option ResponseHeader) := do
  if data.length < 7 then
    return none
  let cmdType ← index data 5
  let cmdId ← index data 6
  let successFlag := (← index data 4) &&& 0x0F
  let typeVariant := ((← index data 4) >>> 4) &&& 0x0F
  return some { cmdType, cmdId, successFlag, typeVariant }

/-- The response header a message of at least seven bytes carries. -/
def ResponseHeader.read (data : List UInt8) : ResponseHeader where
  cmdType := byteAt data 5
  cmdId := byteAt data 6
  successFlag := byteAt data 4 &&& 0x0F
  typeVariant := (byteAt data 4 >>> 4) &&& 0x0F

theorem parseResponse_eq (data : List UInt8) :
    parseResponse data =
      .ok (if data.length < 7 then none else some (.read data)) := by
  unfold parseResponse
  by_cases h : data.length < 7
  · simp [h, pure, Except.pure]
  · have h4 := index_eq data 4 (by omega)
    have h5 := index_eq data 5 (by omega)
    have h6 := index_eq data 6 (by omega)
    simp [h, h4, h5, h6, bind, Except.bind, pure, Except.pure,
      ResponseHeader.read]

/-! ## File header (1A07 response) -/

structure FileHeader where
  fileId : UInt32
  size : UInt32
  nonce : Vector UInt8 16
  encryptedKey : Vector UInt8 46
  sessionNonce : Vector UInt8 16
  code : UInt8
deriving DecidableEq, Repr

inductive FileHeaderCode
  | ok
  | fileNotExists
  | localFileError
  | alreadyComplete
  | unknown (code : UInt8)
deriving DecidableEq, Repr

/-- `impl From<u8> for FileHeaderCode` -/
def FileHeaderCode.ofByte (code : UInt8) : FileHeaderCode :=
  if code = 0 then .ok
  else if code = 1 then .fileNotExists
  else if code = 2 then .localFileError
  else if code = 3 then .alreadyComplete
  else .unknown code

def parseFileHeader (data : List UInt8) : Rust (Option FileHeader) := do
  if data.length < fileHeaderMinSize then
    return none
  let successFlag := (← index data 4) &&& 0x0F
  if successFlag ≠ 1 then
    return none
  let some fileId := tryIntoArray 4 (← slice data 9 13) | return none
  let some size := tryIntoArray 4 (← slice data 13 17) | return none
  let some nonce := tryIntoArray 16 (← slice data 17 33) | return none
  let some encryptedKey := tryIntoArray 46 (← slice data 33 79) | return none
  let some sessionNonce := tryIntoArray 16 (← slice data 79 95) | return none
  let code ← index data 95
  return some {
    fileId := u32FromLeBytes fileId
    size := u32FromLeBytes size
    nonce, encryptedKey, sessionNonce, code }

/-- The file header a message of at least 97 bytes carries. -/
def FileHeader.read (data : List UInt8) : FileHeader where
  fileId := u32FromLeBytes (arrayAt 4 data 9)
  size := u32FromLeBytes (arrayAt 4 data 13)
  nonce := arrayAt 16 data 17
  encryptedKey := arrayAt 46 data 33
  sessionNonce := arrayAt 16 data 79
  code := byteAt data 95

theorem parseFileHeader_eq (data : List UInt8) :
    parseFileHeader data =
      .ok (if 97 ≤ data.length ∧ byteAt data 4 &&& 0x0F = 1
        then some (.read data) else none) := by
  unfold parseFileHeader
  by_cases h : data.length < 97
  · have hlen : ¬ 97 ≤ data.length := by omega
    simp [h, hlen, fileHeaderMinSize, pure, Except.pure]
  · have hlen : 97 ≤ data.length := by omega
    have h4 := index_eq data 4 (by omega)
    have h95 := index_eq data 95 (by omega)
    by_cases hflag : byteAt data 4 &&& 0x0F = 1
    · have hid := tryIntoArray_field 4 9 data (by omega)
      have hsize := tryIntoArray_field 4 13 data (by omega)
      have hnonce := tryIntoArray_field 16 17 data (by omega)
      have hkey := tryIntoArray_field 46 33 data (by omega)
      have hsn := tryIntoArray_field 16 79 data (by omega)
      rw [slice_eq (by omega) (by omega), slice_eq (by omega) (by omega),
        slice_eq (by omega) (by omega), slice_eq (by omega) (by omega),
        slice_eq (by omega) (by omega)]
      simp [h, hlen, hflag, fileHeaderMinSize, h4, h95, hid, hsize, hnonce, hkey,
        hsn, bind, Except.bind, pure, Except.pure, FileHeader.read]
    · simp [h, hflag, fileHeaderMinSize, h4, bind, Except.bind, pure, Except.pure]

/-! ## Audio slices (1A08 and 1A12 responses) -/

structure AudioSlice where
  sequenceNumber : UInt32
  hasMarker : Bool
  encryptedChunk : List UInt8
deriving DecidableEq, Repr

/-- The `while` loop of `parse_audio_slices`, from its state at `offset`. -/
def parseAudioSlicesLoop (data : List UInt8) :
    (fuel offset : ℕ) → List AudioSlice → Rust (List AudioSlice)
  | 0, _, _ => throw .diverged
  | fuel + 1, offset, slices => do
      if offset + slicePayloadSize ≤ data.length then
        let some seq := tryIntoArray 4 (← slice data offset (offset + 4))
          | throw .unwrapFailed
        let flags ← index data (offset + 4)
        let hasMarker := decide (flags &&& 0x01 ≠ 0)
        let chunk ← slice data (offset + 5) (offset + 5 + chunkEncryptedSize)
        parseAudioSlicesLoop data fuel (offset + slicePayloadSize)
          (slices ++ [{ sequenceNumber := u32FromLeBytes seq
                        hasMarker
                        encryptedChunk := chunk }])
      else
        return slices

def parseAudioSlices (data : List UInt8) : Rust (List AudioSlice) :=
  parseAudioSlicesLoop data (data.length + 1) 9 []

/-- The slice whose 166 bytes start at `offset`. -/
def AudioSlice.read (data : List UInt8) (offset : ℕ) : AudioSlice where
  sequenceNumber := u32FromLeBytes (arrayAt 4 data offset)
  hasMarker := decide (byteAt data (offset + 4) &&& 0x01 ≠ 0)
  encryptedChunk := (data.drop (offset + 5)).take 160

/-- The slices of a message: as many as fit whole behind the nine-byte
prefix. -/
def audioSlicesOf (data : List UInt8) : List AudioSlice :=
  (List.range ((data.length - 9) / 166)).map fun k =>
    .read data (9 + 166 * k)

theorem parseAudioSlicesLoop_eq (data : List UInt8) : ∀ (n fuel k : ℕ)
    (slices : List AudioSlice), n < fuel → k + n = (data.length - 9) / 166 →
    parseAudioSlicesLoop data fuel (9 + 166 * k) slices =
      .ok (slices ++ (List.range' k n).map fun j => .read data (9 + 166 * j)) := by
  intro n
  induction n with
  | zero =>
      intro fuel k slices hfuel hk
      obtain ⟨fuel, rfl⟩ : ∃ f, fuel = f + 1 := ⟨fuel - 1, by omega⟩
      have hend : ¬ 9 + 166 * k + 166 ≤ data.length := by omega
      simp [parseAudioSlicesLoop, slicePayloadSize, hend, pure, Except.pure]
  | succ n ih =>
      intro fuel k slices hfuel hk
      obtain ⟨fuel, rfl⟩ : ∃ f, fuel = f + 1 := ⟨fuel - 1, by omega⟩
      have hroom : 9 + 166 * k + 166 ≤ data.length := by omega
      have hseq := tryIntoArray_field 4 (9 + 166 * k) data
        (by omega)
      have hflags := index_eq data (9 + 166 * k + 4) (by omega)
      have hnext : 9 + 166 * k + 166 = 9 + 166 * (k + 1) := by ring
      rw [parseAudioSlicesLoop, slice_eq (by omega) (by omega),
        slice_eq (by simp [chunkEncryptedSize]) (by simp [chunkEncryptedSize]; omega),
        Nat.add_sub_cancel_left, Nat.add_sub_cancel_left]
      simp only [slicePayloadSize, chunkEncryptedSize]
      have hih := ih fuel (k + 1) (slices ++ [.read data (9 + 166 * k)])
        (by omega) (by omega)
      rw [← hnext] at hih
      simpa [hroom, bind, Except.bind, hseq, hflags, AudioSlice.read,
        List.range'_succ] using hih

theorem parseAudioSlices_eq (data : List UInt8) :
    parseAudioSlices data = .ok (audioSlicesOf data) := by
  have h := parseAudioSlicesLoop_eq data ((data.length - 9) / 166)
    (data.length + 1) 0 [] (by omega) (by omega)
  rw [List.nil_append, ← List.range_eq_range'] at h
  exact h

theorem length_encryptedChunk {data : List UInt8} {s : AudioSlice}
    (hs : s ∈ audioSlicesOf data) : s.encryptedChunk.length = 160 := by
  obtain ⟨k, hk, rfl⟩ := List.mem_map.mp hs
  have hlt := List.mem_range.mp hk
  simp [AudioSlice.read]
  omega

/-- A message too short for one slice carries none. -/
theorem audioSlicesOf_of_short {data : List UInt8}
    (h : data.length < 9 + 166) : audioSlicesOf data = [] := by
  have hcount : (data.length - 9) / 166 = 0 := by omega
  simp [audioSlicesOf, hcount]

/-! ## File list (1A0E response) -/

structure FileInfo where
  fileId : UInt32
  size : UInt32
  durationMs : UInt32
deriving DecidableEq, Repr

/-- The `for` loop of `parse_file_list`: `remaining` more rounds at most, the
next entry at `offset`. -/
def parseFileListLoop (profile : Profile) (data : List UInt8) :
    (remaining offset : ℕ) → List FileInfo → Rust (Option (List FileInfo))
  | 0, _, files => return some files
  | remaining + 1, offset, files => do
      if offset + 8 > data.length then
        return some files
      let some time := tryIntoArray 4 (← slice data offset (offset + 4))
        | return none
      let some duration := tryIntoArray 4 (← slice data (offset + 4) (offset + 8))
        | return none
      let duration := u32FromLeBytes duration
      let size ← mulU32 profile (duration / 20) (UInt32.ofNat slicePayloadSize)
      parseFileListLoop profile data remaining (offset + 8)
        (files ++ [{ fileId := u32FromLeBytes time, size, durationMs := duration }])

def parseFileList (profile : Profile) (data : List UInt8) :
    Rust (Option (List FileInfo)) := do
  if data.length < 11 then
    return none
  let some count := tryIntoArray 2 (← slice data 9 11) | return none
  let fileCount := (u16FromLeBytes count).toNat
  parseFileListLoop profile data fileCount 11 []

/-! ## ECDH response (2E01 response) -/

structure EcdhResponse where
  devicePubkey : List UInt8
  deviceSharedKey : List UInt8
deriving DecidableEq, Repr

def parseEcdhResponse (data : List UInt8) : Rust (Option EcdhResponse) := do
  if data.length < 9 + 65 + 32 then
    return none
  let devicePubkey ← slice data 9 74
  let deviceSharedKey ← slice data 74 106
  return some { devicePubkey, deviceSharedKey }

theorem parseEcdhResponse_eq (data : List UInt8) :
    parseEcdhResponse data =
      .ok (if data.length < 106 then none
        else some ⟨(data.drop 9).take 65, (data.drop 74).take 32⟩) := by
  unfold parseEcdhResponse
  by_cases h : data.length < 106
  · simp [h, pure, Except.pure]
  · rw [slice_eq (by omega) (by omega), slice_eq (by omega) (by omega)]
    simp [h, bind, Except.bind, pure, Except.pure]

end MicRs
