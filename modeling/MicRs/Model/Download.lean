import MicRs.Model.Ble
import MicRs.Model.Crypto
import MicRs.Model.OggWriter

/-!
# `download.rs`: the file transfer

`download_file` in its five steps. Its two receive loops are given by their
bodies (`headerBody`, `sliceBodyWith`), and the three file system calls at the
end meet the outcomes of the environment. A callback that panics ends the
download where it is called; `downloadFile` is the download with one that does
nothing.
-/

namespace MicRs

/-! ## File system -/

def Disk.put (disk : Disk) (path : Path) (content : List UInt8) : Disk :=
  Function.update disk path (some content)

/-- `File::create`, which truncates an existing file. -/
def createFile (env : Env) (path : Path) : RecorderM Unit :=
  match env.create with
  | some e => throw (.error (.io e))
  | none => modify fun w => { w with disk := w.disk.put path [] }

/-- `file.write_all(data)` on the file just created. -/
def writeAll (env : Env) (path : Path) (data : List UInt8) : RecorderM Unit :=
  match env.writeAll with
  | some (n, e) => do
      modify fun w => { w with disk := w.disk.put path (data.take n) }
      throw (.error (.io e))
  | none => modify fun w => { w with disk := w.disk.put path data }

/-- `file.flush()` after `data` was written. -/
def flush (env : Env) (path : Path) (data : List UInt8) : RecorderM Unit :=
  match env.flush with
  | some (n, e) => do
      modify fun w => { w with disk := w.disk.put path (data.take n) }
      throw (.error (.io e))
  | none => return ()

/-- `output_dir.join(format!("{}.opus", file_id))` -/
def opusPath (outputDir : Path) (fileId : UInt32) : Path :=
  outputDir.join (toString fileId.toNat ++ ".opus")

/-! ## Waiting for the header -/

/-- The body of the loop that waits for the 1A07 response. -/
def headerBody (_ : Unit) (data : List UInt8) : LogM (Unit ⊕ FileHeader) := do
  match ← parseResponse data with
  | none => return .inl ()
  | some resp =>
      -- The first 1A07 message decides, whatever file it is about.
      if resp.cmdType = cmdTypeFile ∧ resp.cmdId = cmdFileHeader then
        match ← parseFileHeader data with
        | none =>
            throw (.error (.invalidResponse "failed to parse file header"))
        | some hdr => return .inr hdr
      else
        return .inl ()

/-- `{:?}` of a header code. -/
def FileHeaderCode.debug : FileHeaderCode → String
  | .ok => "Ok"
  | .fileNotExists => "FileNotExists"
  | .localFileError => "LocalFileError"
  | .alreadyComplete => "AlreadyComplete"
  | .unknown code => "Unknown(" ++ toString code.toNat ++ ")"

/-! ## Receiving slices -/

/-- A progress callback, which may panic. -/
abbrev Callback : Type := DownloadProgress → Rust Unit

/-- The callback that does nothing. -/
def quiet : Callback := fun _ => .ok ()

/-- What the slice loop carries. -/
structure Transfer where
  rawFrames : List (List UInt8)
  bytesReceived : UInt32
  lastSeq : UInt32
deriving DecidableEq, Repr

def Transfer.start : Transfer where
  rawFrames := []
  bytesReceived := 0
  lastSeq := 0

variable (C : Ciphers) (profile : Profile) (progress : Callback)

/-- One round of the loop over the slices of a message. -/
def acceptSliceWith (fileId : UInt32) (fileHeader : FileHeader)
    (fileKey : Vector UInt8 32) (st : Transfer) (slice : AudioSlice) :
    LogM Transfer := do
  -- The sum comes first in the condition, so it is computed in every round.
  let expected ← addU32 profile st.lastSeq 1
  if slice.sequenceNumber > expected ∧ st.lastSeq > 0 then
    modify fun log => { log with
      warnings := log.warnings ++ [⟨expected, slice.sequenceNumber⟩] }
  let decrypted ← decryptChunk C profile fileKey fileHeader.nonce
    slice.sequenceNumber slice.encryptedChunk
  let bytesReceived ← addU32 profile st.bytesReceived
    (UInt32.ofNat decrypted.length)
  let report : DownloadProgress := {
    fileId, bytesReceived
    totalBytes := fileHeader.size
    sequence := slice.sequenceNumber }
  modify fun log => { log with reports := log.reports ++ [report] }
  progress report
  return {
    rawFrames := st.rawFrames ++ [decrypted]
    bytesReceived
    lastSeq := slice.sequenceNumber }

/-- The body of the slice loop. -/
def sliceBodyWith (fileId : UInt32) (fileHeader : FileHeader)
    (fileKey : Vector UInt8 32) (st : Transfer) (data : List UInt8) :
    LogM (Transfer ⊕ Transfer) := do
  match ← parseResponse data with
  | none => return .inl st
  | some resp =>
      if resp.cmdType ≠ cmdTypeFile then
        return .inl st
      else if resp.cmdId = cmdFileSlice ∨ resp.cmdId = cmdFileSliceSuppl then
        let slices ← parseAudioSlices data
        let st ← slices.foldlM
          (acceptSliceWith C profile progress fileId fileHeader fileKey) st
        return .inl st
      else if resp.cmdId = cmdFileComplete then
        -- Neither the byte count nor the sequence numbers are looked at.
        return .inr st
      else
        return .inl st

/-! ## The download -/

/-- Step 5: wrap the frames and write the file. -/
def saveFile (env : Env) (fileId : UInt32) (outputDir : Path)
    (rawFrames : List (List UInt8)) : RecorderM Path := do
  let path := opusPath outputDir fileId
  let oggData ← wrapOggOpus profile rawFrames fileId
  createFile env path
  writeAll env path oggData
  flush env path oggData
  return path

/-- Steps 3 to 5, for a header with code 0. -/
def transferFileWith (env : Env) (fileId : UInt32)
    (sessionKey : Vector UInt8 32) (outputDir : Path) (fileHeader : FileHeader) :
    RecorderM Path := do
  let fileKey ← decryptFileKey C sessionKey fileHeader.encryptedKey
    fileHeader.sessionNonce
  let transfer ← recvUntil
    (sliceBodyWith C profile progress fileId fileHeader fileKey) .start
  saveFile profile env fileId outputDir transfer.rawFrames

/-- The match on the header code. -/
def acceptHeaderWith (env : Env) (fileId : UInt32)
    (sessionKey : Vector UInt8 32) (outputDir : Path) (fileHeader : FileHeader) :
    RecorderM Path :=
  match FileHeaderCode.ofByte fileHeader.code with
  | .ok =>
      transferFileWith C profile progress env fileId sessionKey outputDir
        fileHeader
  | .fileNotExists => throw (.error (.fileNotExists fileId))
  -- Nothing is received, and no file is looked for.
  | .alreadyComplete => return opusPath outputDir fileId
  | other =>
      throw (.error (.fileTransferError ("file header code: " ++ other.debug)))

/-- `download_file` -/
def downloadFileWith (env : Env) (fileId : UInt32)
    (sessionKey : Vector UInt8 32) (outputDir : Path) : RecorderM Path := do
  send env (fileHeaderRequest fileId 0)
  let fileHeader ← recvUntil headerBody ()
  acceptHeaderWith C profile progress env fileId sessionKey outputDir fileHeader

/-! A download whose callback is of no consequence. -/

abbrev acceptSlice := acceptSliceWith C profile quiet

abbrev sliceBody := sliceBodyWith C profile quiet

abbrev transferFile := transferFileWith C profile quiet

abbrev acceptHeader := acceptHeaderWith C profile quiet

abbrev downloadFile := downloadFileWith C profile quiet

end MicRs
