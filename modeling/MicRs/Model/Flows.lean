import Mathlib.Data.Nat.Digits.Defs
import MicRs.Base.StateFrame
import MicRs.Model.Connect
import MicRs.Model.Examples
import MicRs.Model.Mike
import MicRs.Model.Recorder

/-!
# `README.md`, `download_all.rs` and `bin/mike.rs`: what the programs do

The programs that come with the crate. Each looks for a device first, connects,
and then does something over the connection (`downloadAllConnected` and so on).
All but one use four of the operations and are written over those (`Client`), so
that they run on the recorder and on what stands for it alike; what they print
is left out. `mike raw` is what it prints. An `anyhow::Error` is the error it is
made of, or a text of the program's own.
-/

namespace MicRs

open StateFrame

/-! ## Progress callbacks -/

/-- The callback of the README. -/
def readmeProgress (profile : Profile) : Callback := fun p => do
  let _ ← readmePct profile p

/-- The callback of `download_all.rs`. -/
def downloadAllProgress (profile : Profile) : Callback := fun p => do
  let _ ← downloadAllPct profile p

/-- The callback of `mike download`, whose percentage is a float. -/
def mikeProgress : Callback := fun _ => return ()

/-! ## The operations they use -/

structure Client (Secret σ : Type) where
  connect : DeviceInfo → EStateM Fault σ Unit
  handshake : Env → Secret → EStateM Fault σ Unit
  listFiles : Env → EStateM Fault σ (List FileInfo)
  downloadFile : Callback → Env → UInt32 → Path → EStateM Fault σ Path
  deleteFile : Env → UInt32 → EStateM Fault σ Unit

/-- A connection, and what it changes when it is made. -/
def connectThen {σ : Type} (opened : σ → σ) (device : DeviceInfo) :
    EStateM Fault σ Unit := do
  let _ ← connect device
  modify opened

/-- A new recorder; the connection is the one that `w` is about. -/
def World.opened (w : World) : World := { w with sessionKey := none }

/-- `Recorder::connect` -/
def recorderConnect (device : DeviceInfo) : RecorderM Unit :=
  connectThen World.opened device

def recorder (C : Ciphers) (E : Ecdh) (profile : Profile) :
    Client E.Secret World where
  connect := recorderConnect
  handshake := handshake C E
  listFiles := listFiles profile
  downloadFile := recorderDownloadFileWith C profile
  deleteFile := deleteFile

/-- The outcomes a program meets outside the channel. -/
structure ProgramEnv where
  bluetooth : Bluetooth
  handshake : Env
  listFiles : Env
  createDirAll : Option String
  /-- Of each download, in their order. -/
  downloadFile : ℕ → Env
  deleteFile : Env
  disconnect : Option String

/-- A characteristic for everything. -/
def recorderCharacteristic : Characteristic where
  uuid := 0
  serviceUuid
  properties := ⟨true, true, true⟩

def recorderPeripheral : Peripheral where
  address := "AA:BB:CC:DD:EE:FF"
  properties := .ok (some ⟨none, [serviceUuid]⟩)
  connect := none
  discoverServices := none
  characteristics := [recorderCharacteristic]
  subscribe := none
  notifications := none

/-- An adapter in range of one recorder. -/
def Bluetooth.fine : Bluetooth where
  manager := none
  adapters := .ok [⟨none, .ok [recorderPeripheral]⟩]

/-- The device that a scan makes of it. -/
def recorderDevice : DeviceInfo where
  name := "Soundcore"
  address := "AA:BB:CC:DD:EE:FF"
  peripheral := recorderPeripheral

/-- A program in which nothing fails. -/
def ProgramEnv.fine : ProgramEnv :=
  ⟨.fine, .fine, .fine, none, fun _ => .fine, .fine, none⟩

/-- The outcome of a file system call under `?`. -/
def ioCall : Option String → Except RecorderError Unit
  | none => .ok ()
  | some e => .error (.io e)

theorem bleCall_ok_iff {σ : Type} {outcome : Option String} {s s' : σ}
    {u : Unit} :
    (liftM (bleCall outcome) : EStateM Fault σ Unit).run s = .ok u s' ↔
      outcome = none ∧ s' = s := by
  rcases outcome with _ | e
  · simp [bleCall, eq_comm]
  · simp [bleCall]

theorem ioCall_ok_iff {σ : Type} {outcome : Option String} {s s' : σ}
    {u : Unit} :
    (liftM (ioCall outcome) : EStateM Fault σ Unit).run s = .ok u s' ↔
      outcome = none ∧ s' = s := by
  rcases outcome with _ | e
  · simp [ioCall, eq_comm]
  · simp [ioCall]

/-- A result that has nothing to do with the state, under `?`. -/
theorem lift_result_ok_iff {σ α : Type} {x : Except RecorderError α}
    {s s' : σ} {a : α} :
    (liftM x : EStateM Fault σ α).run s = .ok a s' ↔ x = .ok a ∧ s' = s := by
  rcases x with e | a'
  · simp
  · simp [eq_comm]

section ConnectThen

variable {σ : Type} (opened : σ → σ) {device : DeviceInfo} {s : σ}

theorem connectThen_ok_iff {s' : σ} {u : Unit} :
    (connectThen opened device).run s = .ok u s' ↔
      device.Connects ∧ s' = opened s := by
  rw [connectThen, run_bind_ok_iff]
  simp only [lift_result_ok_iff]
  constructor
  · rintro ⟨conn, _, ⟨hconn, rfl⟩, hopened⟩
    cases hopened
    exact ⟨⟨conn, hconn⟩, rfl⟩
  · rintro ⟨⟨conn, hconn⟩, rfl⟩
    exact ⟨conn, s, ⟨hconn, rfl⟩, rfl⟩

theorem connectThen_of_connects (h : device.Connects) (s : σ) :
    (connectThen opened device).run s = .ok () (opened s) :=
  (connectThen_ok_iff opened).mpr ⟨h, rfl⟩

theorem connectThen_of_not_connects (h : ¬ device.Connects) (s : σ) :
    ∃ e, (connectThen opened device).run s = .error (.error e) s := by
  rcases hconn : connect device with e | conn
  · refine ⟨e, ?_⟩
    simp only [connectThen, hconn, EStateM.run_bind, run_lift_result_error]
  · exact absurd ⟨conn, hconn⟩ h

end ConnectThen

/-- The first device of a scan connects. -/
def Bluetooth.Reaches (bluetooth : Bluetooth) (device : DeviceInfo) : Prop :=
  (∃ devices, scanDevices bluetooth = .ok (device :: devices)) ∧
    device.Connects

theorem recorderDevice_reached :
    ProgramEnv.fine.bluetooth.Reaches recorderDevice :=
  ⟨⟨[], rfl⟩, _, rfl⟩

theorem recorderDevice_found (toLowercase : String → String) :
    findDevice toLowercase ProgramEnv.fine.bluetooth recorderDevice.address =
      .ok (.ok recorderDevice) := rfl

variable {Secret σ : Type} (client : Client Secret σ) (env : ProgramEnv)

/-! ## The examples -/

/-- Steps 4 and 5 of `download_all.rs`. -/
def downloadEach (profile : Profile) (files : List FileInfo) :
    EStateM Fault σ Unit := do
  let outputDir : Path := [".", "recordings"]
  ioCall env.createDirAll
  forM files.zipIdx fun (f, i) => do
    let _ ← client.downloadFile (downloadAllProgress profile)
      (env.downloadFile i) f.fileId outputDir
  bleCall env.disconnect

/-- `download_all.rs` from the handshake on. -/
def downloadAllConnected (profile : Profile) (secret : Secret) :
    EStateM Fault σ Unit := do
  client.handshake env.handshake secret
  let files ← client.listFiles env.listFiles
  if files.isEmpty then
    bleCall env.disconnect
  else
    downloadEach client env profile files

/-- `main` of `download_all.rs`, which is content with no device. -/
def downloadAll (profile : Profile) (secret : Secret) :
    EStateM Fault σ Unit := do
  match ← scanDevices env.bluetooth with
  | [] => return ()
  | device :: _ =>
      client.connect device
      downloadAllConnected client env profile secret

/-- The program of the README from the handshake on; it deletes what it has
downloaded. -/
def readmeConnected (profile : Profile) (secret : Secret) :
    EStateM Fault σ Unit := do
  client.handshake env.handshake secret
  let files ← client.listFiles env.listFiles
  match files with
  -- `files[0]`
  | [] => throw (.panic .indexOutOfBounds)
  | file :: _ =>
      let _ ← client.downloadFile (readmeProgress profile)
        (env.downloadFile 0) file.fileId [".", "output"]
      client.deleteFile env.deleteFile file.fileId
      bleCall env.disconnect

/-- The program of the README. -/
def readmeExample (profile : Profile) (secret : Secret) :
    EStateM Fault σ Unit := do
  match ← scanDevices env.bluetooth with
  -- `expect("no device found")`
  | [] => throw (.panic .unwrapFailed)
  | device :: _ =>
      client.connect device
      readmeConnected client env profile secret

/-! ## The command line -/

/-- `mike list` from the handshake on, with the files it prints. -/
def mikeListConnected (secret : Secret) : EStateM Fault σ (List FileInfo) := do
  client.handshake env.handshake secret
  let files ← client.listFiles env.listFiles
  bleCall env.disconnect
  return files

/-- `mike download` from the handshake on, with the path it prints. -/
def mikeDownloadConnected (secret : Secret) (fileId : UInt32) (output : Path) :
    EStateM Fault σ Path := do
  client.handshake env.handshake secret
  ioCall env.createDirAll
  let path ← client.downloadFile mikeProgress (env.downloadFile 0) fileId
    output
  bleCall env.disconnect
  return path

/-- A command of `mike` with the device that answers to the query; the inner
error is that of `find_device`. -/
def onDevice {α : Type} (toLowercase : String → String) (query : String)
    (command : EStateM Fault σ α) : EStateM Fault σ (Except String α) := do
  match ← findDevice toLowercase env.bluetooth query with
  | .error e => return .error e
  | .ok device =>
      client.connect device
      return .ok (← command)

/-- `mike list` -/
def mikeList (toLowercase : String → String) (query : String)
    (secret : Secret) : EStateM Fault σ (Except String (List FileInfo)) :=
  onDevice client env toLowercase query
    (mikeListConnected client env secret)

/-- `mike download` -/
def mikeDownload (toLowercase : String → String) (query : String)
    (secret : Secret) (fileId : UInt32) (output : Path) :
    EStateM Fault σ (Except String Path) :=
  onDevice client env toLowercase query
    (mikeDownloadConnected client env secret fileId output)

/-! ## Programs up to their connection -/

section Start

variable {client env} {opened : σ → σ}
  (hconnect : client.connect = connectThen opened) (profile : Profile)
  (secret : Secret)

include hconnect

/-- **`download_all.rs` returns** where no device is found, or over the
connection to the first one. -/
theorem downloadAll_returns_iff {s s' : σ} {u : Unit} :
    (downloadAll client env profile secret).run s = .ok u s' ↔
      (scanDevices env.bluetooth = .ok [] ∧ s' = s) ∨
      (∃ device, env.bluetooth.Reaches device) ∧
        (downloadAllConnected client env profile secret).run (opened s) =
          .ok u s' := by
  rw [downloadAll, run_bind_ok_iff]
  simp only [lift_result_ok_iff]
  constructor
  · rintro ⟨_ | ⟨device, devices⟩, _, ⟨hscan, rfl⟩, h⟩
    · cases h
      exact Or.inl ⟨hscan, rfl⟩
    · obtain ⟨_, _, hopened, h⟩ := run_bind_ok_iff.mp h
      rw [hconnect, connectThen_ok_iff] at hopened
      obtain ⟨hconnects, rfl⟩ := hopened
      exact Or.inr ⟨⟨device, ⟨devices, hscan⟩, hconnects⟩, h⟩
  · rintro (⟨hscan, rfl⟩ | ⟨⟨device, ⟨devices, hscan⟩, hconnects⟩, h⟩)
    · exact ⟨[], s', ⟨hscan, rfl⟩, rfl⟩
    · refine ⟨device :: devices, s, ⟨hscan, rfl⟩,
        run_bind_ok_iff.mpr ⟨(), opened s, ?_, h⟩⟩
      rw [hconnect, connectThen_ok_iff]
      exact ⟨hconnects, rfl⟩

theorem readmeExample_run {device : DeviceInfo}
    (h : env.bluetooth.Reaches device) (s : σ) :
    (readmeExample client env profile secret).run s =
      (readmeConnected client env profile secret).run (opened s) := by
  obtain ⟨⟨devices, hscan⟩, hconnects⟩ := h
  simp only [readmeExample, hscan, EStateM.run_bind, run_lift_result_ok,
    hconnect, connectThen_of_connects opened hconnects]

theorem readmeExample_unconnected
    (h : ∀ device, ¬ env.bluetooth.Reaches device) (s : σ) :
    ∃ e, (readmeExample client env profile secret).run s = .error e s := by
  rcases hscan : scanDevices env.bluetooth with e | _ | ⟨device, devices⟩
  · simp [readmeExample, hscan]
  · simp [readmeExample, hscan]
  · obtain ⟨e, hfails⟩ := connectThen_of_not_connects (s := s) opened
      fun hconnects => h device ⟨⟨devices, hscan⟩, hconnects⟩
    simp [readmeExample, hscan, hconnect, hfails]

/-- The program of the README needs one. -/
theorem readmeExample_returns_iff {s s' : σ} {u : Unit} :
    (readmeExample client env profile secret).run s = .ok u s' ↔
      (∃ device, env.bluetooth.Reaches device) ∧
        (readmeConnected client env profile secret).run (opened s) =
          .ok u s' := by
  by_cases hreaches : ∃ device, env.bluetooth.Reaches device
  · obtain ⟨device, hdevice⟩ := hreaches
    rw [readmeExample_run hconnect profile secret hdevice]
    exact (and_iff_right ⟨device, hdevice⟩).symm
  · obtain ⟨e, hfails⟩ := readmeExample_unconnected hconnect profile secret
      (not_exists.mp hreaches) s
    rw [hfails]
    simp [hreaches]

variable {α : Type} (command : EStateM Fault σ α)
  (toLowercase : String → String) (query : String)

/-- A command of `mike` returns from a device, or with the error of
`find_device`. -/
theorem onDevice_ok_iff {s s' : σ} {result : Except String α} :
    (onDevice client env toLowercase query command).run s = .ok result s' ↔
      (∃ e, findDevice toLowercase env.bluetooth query = .ok (.error e) ∧
        result = .error e ∧ s' = s) ∨
      ∃ device a, findDevice toLowercase env.bluetooth query =
          .ok (.ok device) ∧ device.Connects ∧ result = .ok a ∧
        command.run (opened s) = .ok a s' := by
  rw [onDevice, run_bind_ok_iff]
  simp only [lift_result_ok_iff]
  constructor
  · rintro ⟨e | device, _, ⟨hfind, rfl⟩, h⟩
    · cases h
      exact Or.inl ⟨e, hfind, rfl, rfl⟩
    · obtain ⟨_, _, hopened, h⟩ := run_bind_ok_iff.mp h
      rw [hconnect, connectThen_ok_iff] at hopened
      obtain ⟨hconnects, rfl⟩ := hopened
      obtain ⟨a, _, hcommand, hresult⟩ := run_bind_ok_iff.mp h
      cases hresult
      exact Or.inr ⟨device, a, hfind, hconnects, rfl, hcommand⟩
  · rintro (⟨e, hfind, rfl, rfl⟩ | ⟨device, a, hfind, hconnects, rfl, hcommand⟩)
    · exact ⟨.error e, s', ⟨hfind, rfl⟩, rfl⟩
    · refine ⟨.ok device, s, ⟨hfind, rfl⟩, run_bind_ok_iff.mpr
        ⟨(), opened s, ?_, run_bind_ok_iff.mpr ⟨a, s', hcommand, rfl⟩⟩⟩
      rw [hconnect, connectThen_ok_iff]
      exact ⟨hconnects, rfl⟩

end Start

/-! ## Raw commands -/

/-- `{:04X}` of an offset. -/
def hexOffset (n : ℕ) : List Char :=
  List.leftpad 4 '0'
    ((Nat.digits 16 n).reverse.map fun d => (Nat.digitChar d).toUpper)

/-- A byte in the text column: `u8::is_ascii_graphic`, or a blank. -/
def textChar (b : UInt8) : Char :=
  if (0x21 ≤ b ∧ b ≤ 0x7E) ∨ b = 0x20 then Char.ofNat b.toNat else '.'

/-- A line of `hexdump`. -/
def hexdumpLine (i : ℕ) (chunk : List UInt8) : List Char :=
  let hex := [' '].intercalate (chunk.map fun b => (hexByte b).toList)
  let ascii := chunk.map textChar
  [' ', ' '] ++ hexOffset (i * 16) ++ [' ', ' '] ++ hex.rightpad 48 ' ' ++
    [' ', ' '] ++ ascii

/-- `hexdump`, with the lines it prints. -/
def hexdump (data : List UInt8) : List (List Char) :=
  (chunks 16 data).zipIdx.map fun (chunk, i) => hexdumpLine i chunk

end MicRs
