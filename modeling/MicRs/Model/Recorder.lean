import MicRs.Model.Download

/-!
# `lib.rs`: the `Recorder` operations

The three Soundcore operations, the raw ones and the session key, and runs of
them on one connection. `DeviceKind` has a single value, so the dispatch on it
is left out.
-/

namespace MicRs

/-- `{:02X}` -/
def hexByte (b : UInt8) : String :=
  String.ofList [Nat.digitChar (b.toNat / 16), Nat.digitChar (b.toNat % 16)]
    |>.toUpper

variable (C : Ciphers) (E : Ecdh) (profile : Profile)

/-- `soundcore_handshake`, for the secret of the fresh key pair. -/
def handshake (env : Env) (secret : E.Secret) : RecorderM Unit := do
  let keypair := EcdhKeypair.generate secret
  let cmd := ecdhPubkeyCommand keypair.publicKeyBytes
  let resp ← sendAndRecv env cmd
  match ← parseEcdhResponse resp with
  | none =>
      throw (.error (.handshakeFailed ("ECDH response too short: " ++
        toString resp.length ++ " bytes (need " ++ toString (9 + 65 + 32) ++ ")")))
  | some ecdhResp =>
      let sharedSecret ← keypair.deriveSharedSecret ecdhResp.devicePubkey
      -- The device sends its shared secret along with its public key.
      if sharedSecret.toList ≠ ecdhResp.deviceSharedKey then
        throw (.error (.handshakeFailed
          "ECDH shared secret mismatch — device computed a different value"))
      let sessionKey := deriveSessionKey C sharedSecret.toList
      modify fun w => { w with sessionKey := some sessionKey }

def setSessionKey (key : Vector UInt8 32) : RecorderM Unit :=
  modify fun w => { w with sessionKey := some key }

/-- `soundcore_list_files` -/
def listFiles (env : Env) : RecorderM (List FileInfo) := do
  let resp ← sendAndRecv env (fileListRequest 0)
  match ← parseResponse resp with
  | none => throw (.error (.invalidResponse "invalid file list response"))
  | some header =>
      if header.cmdType ≠ cmdTypeFile ∨ header.cmdId ≠ cmdGetAllFiles then
        throw (.error (.invalidResponse ("unexpected response: " ++
          hexByte header.cmdType ++ hexByte header.cmdId)))
      match ← parseFileList profile resp with
      | none => throw (.error (.invalidResponse "failed to parse file list"))
      | some files => return files

/-- `Recorder::download_file` -/
def recorderDownloadFileWith (progress : Callback) (env : Env)
    (fileId : UInt32) (outputDir : Path) : RecorderM Path := do
  match (← get).sessionKey with
  | none =>
      throw (.error (.handshakeFailed
        "no session key — call handshake() first"))
  | some key => downloadFileWith C profile progress env fileId key outputDir

abbrev recorderDownloadFile := recorderDownloadFileWith C profile quiet

/-- `soundcore_delete_file` -/
def deleteFile (env : Env) (fileId : UInt32) : RecorderM Unit := do
  let resp ← sendAndRecv env (deleteFileCommand fileId)
  match ← parseResponse resp with
  | none => throw (.error (.invalidResponse "invalid delete response"))
  | some header =>
      -- The type and the id of the answer are not compared.
      if header.successFlag ≠ 1 then
        throw (.error (.invalidResponse ("delete_file failed: flag=" ++
          toString header.successFlag.toNat)))

/-- `raw_command` -/
def rawCommand (env : Env) (data : List UInt8) : RecorderM (List UInt8) :=
  sendAndRecv env data

/-- `raw_send` -/
def rawSend (env : Env) (data : List UInt8) : RecorderM Unit :=
  send env data

/-! ## Runs of operations -/

inductive Op (Secret : Type)
  | handshake (secret : Secret)
  | setSessionKey (key : Vector UInt8 32)
  | listFiles
  | downloadFile (fileId : UInt32) (outputDir : Path)
  | deleteFile (fileId : UInt32)
  | rawCommand (data : List UInt8)
  | rawSend (data : List UInt8)

/-- What an operation returns. -/
inductive Answer
  | unit
  | files (files : List FileInfo)
  | path (path : Path)
  | bytes (data : List UInt8)
deriving DecidableEq, Repr

/-- An operation together with the environment it meets. -/
structure Call (Secret : Type) where
  op : Op Secret
  env : Env

def Call.exec (call : Call E.Secret) : RecorderM Answer :=
  match call.op with
  | .handshake secret => do handshake C E call.env secret; return .unit
  | .setSessionKey key => do setSessionKey key; return .unit
  | .listFiles => return .files (← listFiles profile call.env)
  | .downloadFile fileId outputDir =>
      return .path (← recorderDownloadFile C profile call.env fileId outputDir)
  | .deleteFile fileId => do deleteFile call.env fileId; return .unit
  | .rawCommand data => return .bytes (← rawCommand call.env data)
  | .rawSend data => do rawSend call.env data; return .unit

/-- One operation of a run: the world before it, the call and its result. -/
structure Step (Secret : Type) where
  before : World
  call : Call Secret
  result : EStateM.Result Fault World Answer

/-- The world an operation leaves behind. -/
def worldAfter {α : Type} : EStateM.Result Fault World α → World
  | .ok _ w => w
  | .error _ w => w

/-- The operations of a session one after the other, from a given world. An
error leaves the recorder usable; a panic ends the run. -/
def session (w : World) : List (Call E.Secret) → List (Step E.Secret)
  | [] => []
  | call :: calls =>
      let result := (call.exec C E profile).run w
      { before := w, call, result } ::
        match result with
        | .error (.panic _) _ => []
        | _ => session (worldAfter result) calls

end MicRs
