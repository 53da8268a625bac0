import MicRs.Base.Channel
import MicRs.Model.Ble

/-!
# `ble.rs`: scanning, connecting and the notifications

What the crate makes of the Bluetooth stack. The stack itself is another crate:
each of its calls comes with the outcome it has (`none` or `.ok` is success),
and a peripheral with what it advertises and the characteristics it has.
-/

namespace MicRs

open Channel

/-! ## Bluetooth as the crate meets it -/

abbrev Uuid : Type := BitVec 128

/-- `SERVICE_UUID` -/
def serviceUuid : Uuid := 0x020cf5da00001000800000805f9b34fb#128

/-- The flags of `CharPropFlags` that the crate asks for. -/
structure CharPropFlags where
  write : Bool
  writeWithoutResponse : Bool
  notify : Bool
deriving DecidableEq, Repr

structure Characteristic where
  uuid : Uuid
  serviceUuid : Uuid
  properties : CharPropFlags
deriving DecidableEq, Repr

structure PeripheralProperties where
  localName : Option String
  services : List Uuid
deriving DecidableEq, Repr

structure Peripheral where
  address : String
  properties : Except String (Option PeripheralProperties)
  connect : Option String
  discoverServices : Option String
  /-- In the order of the set they come in. -/
  characteristics : List Characteristic
  subscribe : Option String
  notifications : Option String

structure Adapter where
  startScan : Option String
  peripherals : Except String (List Peripheral)

/-- `Manager::new` and `manager.adapters`. -/
structure Bluetooth where
  manager : Option String
  adapters : Except String (List Adapter)

/-- The outcome of a call under `?`. -/
def bleCall : Option String → Except RecorderError Unit
  | none => .ok ()
  | some e => .error (.ble e)

def bleResult {α : Type} : Except String α → Except RecorderError α
  | .ok a => .ok a
  | .error e => .error (.ble e)

/-! ## Scanning -/

structure DeviceInfo where
  name : String
  address : String
  peripheral : Peripheral

/-- One round of the loop over the peripherals. -/
def scanPeripheral (devices : List DeviceInfo) (p : Peripheral) :
    Except RecorderError (List DeviceInfo) := do
  match ← bleResult p.properties with
  | none => return devices
  | some props =>
      if !props.services.contains serviceUuid then
        return devices
      else
        let name := props.localName.getD "Soundcore"
        return devices ++ [{ name, address := p.address, peripheral := p }]

def scanDevices (bluetooth : Bluetooth) :
    Except RecorderError (List DeviceInfo) := do
  bleCall bluetooth.manager
  match ← bleResult bluetooth.adapters with
  | [] => throw .noAdapter
  | adapter :: _ =>
      bleCall adapter.startScan
      -- The outcome of `stop_scan` is dropped.
      let peripherals ← bleResult adapter.peripherals
      peripherals.foldlM scanPeripheral []

/-- The filter of `find_device`. `to_lowercase` is that of `str`, over all of
Unicode. -/
def DeviceInfo.answersTo (toLowercase : String → String) (query : String)
    (d : DeviceInfo) : Bool :=
  d.address == query ||
    decide ((toLowercase query).toList <:+: (toLowercase d.name).toList)

/-- `find_device` of `mike`; the inner error is its own. -/
def findDevice (toLowercase : String → String) (bluetooth : Bluetooth)
    (query : String) : Except RecorderError (Except String DeviceInfo) := do
  let devices ← scanDevices bluetooth
  match devices.find? (DeviceInfo.answersTo toLowercase query) with
  | some d => return .ok d
  | none => return .error ("device '" ++ query ++ "' not found")

/-! ## Connecting -/

/-- Whether `send` can write to a characteristic, in one way or the other. -/
def Characteristic.writable (c : Characteristic) : Bool :=
  c.properties.write || c.properties.writeWithoutResponse

def Characteristic.notifies (c : Characteristic) : Bool :=
  c.properties.notify

/-- The first characteristic with `p` under the service of the recorder, or else
the first one anywhere. -/
def preferService (p : Characteristic → Bool) (chars : List Characteristic) :
    Option Characteristic :=
  ((chars.filter fun c => c.serviceUuid == serviceUuid).find? p).or
    (chars.find? p)

theorem preferService_holds {p : Characteristic → Bool}
    {chars : List Characteristic} {c : Characteristic}
    (h : preferService p chars = some c) : p c = true := by
  rw [preferService, Option.or_eq_some_iff] at h
  rcases h with h | ⟨-, h⟩
  · exact List.find?_some h
  · exact List.find?_some h

/-- A connection; it is only made with a characteristic that takes writes. -/
structure BleConnection where
  peripheral : Peripheral
  writeChar : Characteristic
  notifyChar : Characteristic
  writable : writeChar.writable = true
  notifies : notifyChar.notifies = true

/-- `BleConnection::connect`. The characteristic that is subscribed to is kept
here, though nothing but the subscription uses it. -/
def connect (device : DeviceInfo) : Except RecorderError BleConnection := do
  let peripheral := device.peripheral
  bleCall peripheral.connect
  bleCall peripheral.discoverServices
  let chars := peripheral.characteristics
  match hwrite : preferService Characteristic.writable chars with
  | none => throw (.characteristicNotFound "write")
  | some writeChar =>
      match hnotify : preferService Characteristic.notifies chars with
      | none => throw (.characteristicNotFound "notify")
      | some notifyChar =>
          bleCall peripheral.subscribe
          bleCall peripheral.notifications
          return {
            peripheral, writeChar, notifyChar
            writable := preferService_holds hwrite
            notifies := preferService_holds hnotify }

def DeviceInfo.Connects (device : DeviceInfo) : Prop :=
  ∃ conn, connect device = .ok conn

inductive WriteType
  | withResponse
  | withoutResponse
deriving DecidableEq, Repr

/-- The write type `send` chooses. -/
def BleConnection.writeType (conn : BleConnection) : WriteType :=
  if conn.writeChar.properties.write then .withResponse else .withoutResponse

/-! ## The notifications -/

/-- The capacity of the channel. -/
def notificationCapacity : ℕ := 256

/-- The notifications of a peripheral, the task that forwards them and the
`recv` calls, in some order of their steps. -/
abbrev Notifications : Type := Relay (List UInt8)

/-- The match in `recv`: on an item, on the end of the channel, and on the time
limit. -/
def recvResult : Reception (List UInt8) → Except Fault (List UInt8)
  | .value data => .ok data
  | .disconnected => .error (.error .disconnected)
  | .timeout => .error (.error .timeout)

/-- What `count` calls of `recv` return. -/
def recvResults : ℕ → World → List (Except Fault (List UInt8))
  | 0, _ => []
  | count + 1, w =>
      match recv.run w with
      | .ok data w' => .ok data :: recvResults count w'
      | .error e w' => .error e :: recvResults count w'

end MicRs
