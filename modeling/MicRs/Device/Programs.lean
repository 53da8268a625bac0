import MicRs.Device.System

/-!
# What the programs do to recordings

The programs of the crate use the recorder through its operations only, so what
they do to the system is what they do to the store (`Client.Refines`), through
any number of runs and whatever fails in them (`activities_refine`). A program
is a process with a connection of its own. A process of one's own goes on after
an error, but a panic ends it, with whatever it leaves unread; what comes next
is over a new connection.
-/

namespace MicRs

open StateFrame Simulation

/-! ## Programs over operations that simulate each other -/

section Simulation

variable {Secret σ τ : Type} {fatal : Fault → Prop} {inv : σ → Prop}
  {abs : σ → τ}

/-- Each operation of `client` does what that of `spec` does. -/
structure Client.Refines (fatal : Fault → Prop) (inv : σ → Prop) (abs : σ → τ)
    (client : Client Secret σ) (spec : Client Secret τ) : Prop where
  connect : ∀ device, Simulates fatal inv abs
    (client.connect device) (spec.connect device)
  handshake : ∀ env secret, Simulates fatal inv abs
    (client.handshake env secret) (spec.handshake env secret)
  listFiles : ∀ env, Simulates fatal inv abs
    (client.listFiles env) (spec.listFiles env)
  downloadFile : ∀ progress env fileId outputDir, Simulates fatal inv abs
    (client.downloadFile progress env fileId outputDir)
    (spec.downloadFile progress env fileId outputDir)
  deleteFile : ∀ env fileId, Simulates fatal inv abs
    (client.deleteFile env fileId) (spec.deleteFile env fileId)

variable {client : Client Secret σ} {spec : Client Secret τ}
  (h : Client.Refines fatal inv abs client spec) (env : ProgramEnv)
  (profile : Profile) (secret : Secret)

include h

theorem downloadEach_simulates (files : List FileInfo) :
    Simulates fatal inv abs (downloadEach client env profile files)
      (downloadEach spec env profile files) := by
  refine (simulates_result _).bind fun _ => Simulates.bind ?_ fun _ =>
    simulates_result _
  exact Simulates.forM (fun _ => (h.downloadFile _ _ _ _).bind fun _ =>
    .pure _) _

theorem downloadAll_simulates :
    Simulates fatal inv abs (downloadAll client env profile secret)
      (downloadAll spec env profile secret) := by
  refine (simulates_result _).bind fun devices => ?_
  rcases devices with _ | ⟨device, devices⟩
  · exact .pure _
  · refine (h.connect device).bind fun _ => (h.handshake _ _).bind fun _ =>
      (h.listFiles _).bind fun files => ?_
    split
    · exact simulates_result _
    · exact downloadEach_simulates h env profile files

theorem readmeExample_simulates :
    Simulates fatal inv abs (readmeExample client env profile secret)
      (readmeExample spec env profile secret) := by
  refine (simulates_result _).bind fun devices => ?_
  rcases devices with _ | ⟨device, devices⟩
  · exact .throw _
  · refine (h.connect device).bind fun _ => (h.handshake _ _).bind fun _ =>
      (h.listFiles _).bind fun files => ?_
    rcases files with _ | ⟨file, files⟩
    · exact .throw _
    · exact (h.downloadFile _ _ _ _).bind fun _ =>
        (h.deleteFile _ _).bind fun _ => simulates_result _

/-- A command of `mike` is simulated where its part with the device is. -/
theorem onDevice_simulates {α : Type} {command : EStateM Fault σ α}
    {command' : EStateM Fault τ α}
    (hcommand : Simulates fatal inv abs command command')
    (toLowercase : String → String) (query : String) :
    Simulates fatal inv abs (onDevice client env toLowercase query command)
      (onDevice spec env toLowercase query command') := by
  refine (simulates_result _).bind fun found => ?_
  rcases found with e | device
  · exact .pure _
  · exact (h.connect device).bind fun _ => hcommand.bind fun _ => .pure _

theorem mikeList_simulates (toLowercase : String → String) (query : String) :
    Simulates fatal inv abs (mikeList client env toLowercase query secret)
      (mikeList spec env toLowercase query secret) := by
  refine onDevice_simulates h env ?_ toLowercase query
  exact (h.handshake _ _).bind fun _ => (h.listFiles _).bind fun _ =>
    (simulates_result _).bind fun _ => .pure _

theorem mikeDownload_simulates (toLowercase : String → String) (query : String)
    (fileId : UInt32) (output : Path) :
    Simulates fatal inv abs
      (mikeDownload client env toLowercase query secret fileId output)
      (mikeDownload spec env toLowercase query secret fileId output) := by
  refine onDevice_simulates h env ?_ toLowercase query
  exact (h.handshake _ _).bind fun _ => (simulates_result _).bind fun _ =>
    (h.downloadFile _ _ _ _).bind fun _ => (simulates_result _).bind fun _ =>
      .pure _

end Simulation

/-! ## Activities -/

/-- An operation, with what it meets. -/
inductive Operation (Secret : Type)
  | connect (device : DeviceInfo)
  | handshake (env : Env) (secret : Secret)
  | listFiles (env : Env)
  | downloadFile (progress : Callback) (env : Env) (fileId : UInt32)
      (outputDir : Path)
  | deleteFile (env : Env) (fileId : UInt32)

def Operation.run {Secret σ : Type} (client : Client Secret σ) :
    Operation Secret → EStateM Fault σ Answer
  | .connect device => do client.connect device; return .unit
  | .handshake env secret => do client.handshake env secret; return .unit
  | .listFiles env => return .files (← client.listFiles env)
  | .downloadFile progress env fileId outputDir =>
      return .path (← client.downloadFile progress env fileId outputDir)
  | .deleteFile env fileId => do client.deleteFile env fileId; return .unit

/-- A program of the crate, with what it meets. -/
inductive Program (Secret : Type)
  | downloadAll (env : ProgramEnv) (secret : Secret)
  | readmeExample (env : ProgramEnv) (secret : Secret)
  | mikeList (env : ProgramEnv) (toLowercase : String → String)
      (query : String) (secret : Secret)
  | mikeDownload (env : ProgramEnv) (toLowercase : String → String)
      (query : String) (secret : Secret) (fileId : UInt32) (output : Path)

/-- The inner error is that of `find_device`. -/
def Program.run {Secret σ : Type} (client : Client Secret σ)
    (profile : Profile) :
    Program Secret → EStateM Fault σ (Except String Answer)
  | .downloadAll env secret => do
      MicRs.downloadAll client env profile secret
      return .ok .unit
  | .readmeExample env secret => do
      MicRs.readmeExample client env profile secret
      return .ok .unit
  | .mikeList env toLowercase query secret => do
      let files ← MicRs.mikeList client env toLowercase query secret
      return files.map Answer.files
  | .mikeDownload env toLowercase query secret fileId output => do
      let path ← MicRs.mikeDownload client env toLowercase query secret fileId
        output
      return path.map Answer.path

/-- What is done with a device, one thing after the other: an operation in a
process of one's own, or a program. -/
inductive Activity (Secret : Type)
  | operation (op : Operation Secret)
  | program (p : Program Secret)

/-- A program ends and leaves a new connection to what comes next; a process of
one's own does so only where it panics. -/
def Activity.perform {Secret σ : Type} (connected : σ → σ)
    (client : Client Secret σ) (profile : Profile) :
    Activity Secret → EStateM Fault σ (Except String Answer)
  | .operation op => renewedIf Fault.IsPanic connected do
      return .ok (← op.run client)
  | .program p => renewed connected (p.run client profile)

variable (C : Ciphers) (profile : Profile) {E : Ecdh}

/-- An activity of the recorder with a device. -/
def Activity.withSystem (activity : Activity E.Secret) :
    EStateM Fault (System E) (Except String Answer) :=
  activity.perform System.connected (systemClient C profile E) profile

/-- An activity as it is meant. -/
def Activity.withStore (activity : Activity E.Secret) :
    EStateM Fault Store (Except String Answer) :=
  activity.perform Store.connected (storeClient profile E.Secret) profile

theorem systemClient_refines (hE : E.Lawful) :
    Client.Refines Fault.IsPanic System.Ready System.store
      (systemClient C profile E) (storeClient profile E.Secret) where
  connect := connect_simulates
  handshake := handshake_simulates C hE
  listFiles := listFiles_simulates C profile
  downloadFile := downloadFile_simulates C profile
  deleteFile := deleteFile_simulates C

section Refines

variable {Secret σ τ : Type} {fatal : Fault → Prop} {inv : σ → Prop}
  {abs : σ → τ} {client : Client Secret σ} {spec : Client Secret τ}
  (h : Client.Refines fatal inv abs client spec)

include h

theorem Operation.simulates (operation : Operation Secret) :
    Simulates fatal inv abs (operation.run client) (operation.run spec) := by
  cases operation with
  | connect device => exact (h.connect device).bind fun _ => .pure _
  | handshake env secret => exact (h.handshake env secret).bind fun _ => .pure _
  | listFiles env => exact (h.listFiles env).bind fun _ => .pure _
  | downloadFile progress env fileId outputDir =>
      exact (h.downloadFile progress env fileId outputDir).bind fun _ => .pure _
  | deleteFile env fileId =>
      exact (h.deleteFile env fileId).bind fun _ => .pure _

theorem Program.simulates (program : Program Secret) :
    Simulates fatal inv abs (program.run client profile)
      (program.run spec profile) := by
  cases program with
  | downloadAll env secret =>
      exact (downloadAll_simulates h env profile secret).bind fun _ => .pure _
  | readmeExample env secret =>
      exact (readmeExample_simulates h env profile secret).bind fun _ => .pure _
  | mikeList env toLowercase query secret =>
      exact (mikeList_simulates h env secret toLowercase query).bind fun _ =>
        .pure _
  | mikeDownload env toLowercase query secret fileId output =>
      exact (mikeDownload_simulates h env secret toLowercase query fileId
        output).bind fun _ => .pure _

end Refines

/-- A panic is no exception: it ends the process. -/
theorem Activity.simulates (hE : E.Lawful) (activity : Activity E.Secret) :
    Simulates (fun _ => False) System.Ready System.store
      (activity.withSystem C profile) (activity.withStore profile) := by
  have h := systemClient_refines C profile hE
  cases activity with
  | operation op =>
      exact ((op.simulates h).bind fun _ => .pure _).renewedIf
        System.ready_connected System.store_connected
  | program p =>
      exact (p.simulates profile h).renewed System.ready_connected
        System.store_connected

/-- P-256 for two ends that have both chosen the secret 1. -/
def generatorEcdh : Ecdh where
  Secret := Unit
  PublicKey := Unit
  publicKeyBytes _ := generatorPoint
  fromSec1Bytes bytes :=
    if bytes = generatorPoint then .ok () else .error "crypto error"
  diffieHellman _ _ := arrayAt 32 generatorPoint 1

theorem generatorEcdh_lawful : generatorEcdh.Lawful where
  length _ := rfl
  valid _ := ⟨(), by simp [generatorEcdh]⟩
  agree _ _ _ _ _ _ := rfl

/-- HKDF-SHA256 of the first coordinate of the generator. -/
def generatorSessionKey : Vector UInt8 32 :=
  #v[0xEE, 0x23, 0xC9, 0xD9, 0x1B, 0xFB, 0xCD, 0xAE,
     0xC9, 0x98, 0x2B, 0xFD, 0x14, 0xF7, 0x35, 0x2F,
     0xB3, 0x1F, 0x93, 0xA7, 0x68, 0x22, 0xBE, 0x7D,
     0x3C, 0xD7, 0x3A, 0x3A, 0x19, 0x98, 0xC9, 0xAA]

/-- AES-256 under `generatorSessionKey`, on the first three counter blocks. -/
def generatorSessionKeyBlocks : List (List UInt8) := [
  [0x1A, 0x5A, 0xDB, 0x9D, 0xBA, 0x01, 0x7D, 0xFC,
   0x12, 0x9B, 0xBC, 0xE2, 0x3E, 0x47, 0x5C, 0x1D],
  [0x8A, 0x9D, 0xA0, 0xC5, 0x96, 0x71, 0x73, 0x6A,
   0x6D, 0xB3, 0x74, 0x6F, 0xB9, 0x1C, 0x79, 0x32],
  [0xBC, 0x17, 0x51, 0xC5, 0xF0, 0x7A, 0xA9, 0x75,
   0x37, 0x71, 0x8D, 0xB7, 0xF7, 0x50, 0x2A, 0xCA]]

/-- The real primitives where a transfer of `shortRecording` under
`generatorSessionKey` meets them, zero elsewhere. -/
def generatorCiphers : Ciphers where
  aes256 key block :=
    let blocks := if key = zeroKey then zeroKeyBlocks
      else if key = generatorSessionKey then generatorSessionKeyBlocks else []
    arrayAt 16 (blocks.getD (Endian.beNat block.toList) []) 0
  hkdfSha256 salt input info :=
    if salt = hkdfSalt ∧ input = (arrayAt 32 generatorPoint 1).toList ∧
        info = hkdfInfo then generatorSessionKey
    else zeroKey

/-- A recording of one frame. -/
def shortRecording : Recording where
  id := 1
  duration := 20
  fileKey := zeroKey
  nonce := zeroNonce
  sessionNonce := zeroNonce
  frames := [Vector.replicate 160 0]
  numbered := by decide

/-- A fresh connection to a device with one recording. -/
def shortSystem : System generatorEcdh where
  world := .connected []
  device := {
    secret := ()
    sessionKey := none
    recordings := [shortRecording]
    batches := fun slices => [slices]
    distinct := by decide
    countable := by decide
    flatten_batches := fun slices => List.append_nil slices }

theorem shortRecording_listable :
    ∀ r ∈ shortSystem.device.recordings, r.Listable := by
  decide

theorem shortSystem_ready : shortSystem.Ready :=
  ⟨rfl, fun _ h => by cases h⟩

end MicRs
