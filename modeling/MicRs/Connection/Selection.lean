import MicRs.Model.Connect

/-!
# Devices and characteristics

Which devices a scan returns (`scanDevices_ok_iff`), which of them `mike` goes on
with (`findDevice_spec`), and which characteristics a connection takes
(`connect_spec`): the first suitable ones under the service of the recorder, and
only if there are none the first ones anywhere.
-/

namespace MicRs

/-! ## Scanning -/

/-- What a scan makes of a peripheral. -/
def Peripheral.device? (p : Peripheral) : Option DeviceInfo :=
  match p.properties with
  | .ok (some props) =>
      if serviceUuid ∈ props.services then
        some ⟨props.localName.getD "Soundcore", p.address, p⟩
      else none
  | _ => none

/-- A peripheral whose properties can be read adds its device, if any. -/
theorem scanPeripheral_ok (devices : List DeviceInfo) {p : Peripheral}
    {props : Option PeripheralProperties} (h : p.properties = .ok props) :
    scanPeripheral devices p = .ok (devices ++ p.device?.toList) := by
  rcases props with _ | props
  · simp only [scanPeripheral, h, Peripheral.device?, Option.toList_none,
      List.append_nil]
    rfl
  · by_cases hservice : serviceUuid ∈ props.services
    · simp [scanPeripheral, h, Peripheral.device?, hservice, bleResult, bind,
        Except.bind, pure, Except.pure]
    · simp [scanPeripheral, h, Peripheral.device?, hservice, bleResult, bind,
        Except.bind, pure, Except.pure]

/-- One whose properties cannot be read ends the scan. -/
theorem scanPeripheral_error (devices : List DeviceInfo) {p : Peripheral}
    {e : String} (h : p.properties = .error e) :
    scanPeripheral devices p = .error (.ble e) := by
  simp only [scanPeripheral, h]
  rfl

/-- The loop over the peripherals, behind the devices found so far. -/
theorem foldlM_scanPeripheral (ps : List Peripheral)
    (found devices : List DeviceInfo) :
    ps.foldlM scanPeripheral found = .ok devices ↔
      (∀ p ∈ ps, ∃ props, p.properties = .ok props) ∧
        devices = found ++ ps.filterMap Peripheral.device? := by
  induction ps generalizing found with
  | nil => simp [pure, Except.pure, eq_comm]
  | cons p ps ih =>
      rw [List.foldlM_cons]
      rcases hprops : p.properties with e | props
      · have hfails : ¬ ∀ q ∈ p :: ps, ∃ props, q.properties = .ok props := by
          intro hall
          obtain ⟨props, hok⟩ := hall p List.mem_cons_self
          rw [hprops] at hok
          cases hok
        rw [scanPeripheral_error found hprops]
        simp only [bind, Except.bind, hfails, false_and, iff_false]
        exact fun h => by cases h
      · have hfirst := scanPeripheral_ok found hprops
        rw [hfirst]
        show ps.foldlM scanPeripheral (found ++ p.device?.toList) = _ ↔ _
        rw [ih]
        have hall : (∀ q ∈ p :: ps, ∃ props, q.properties = .ok props) ↔
            ∀ q ∈ ps, ∃ props, q.properties = .ok props := by
          simp [hprops]
        rw [hall, List.filterMap_cons]
        rcases p.device? with _ | device <;> simp

/-- The first adapter scans, meets `peripherals`, and can read the properties of
all of them. -/
def Bluetooth.Meets (bluetooth : Bluetooth) (peripherals : List Peripheral) :
    Prop :=
  bluetooth.manager = none ∧ ∃ adapter adapters,
    bluetooth.adapters = .ok (adapter :: adapters) ∧
    adapter.startScan = none ∧ adapter.peripherals = .ok peripherals ∧
    ∀ p ∈ peripherals, ∃ props, p.properties = .ok props

/-- **What a scan returns**: those of the peripherals it meets that advertise
the service of the recorder, in their order. -/
theorem scanDevices_ok_iff (bluetooth : Bluetooth)
    (devices : List DeviceInfo) :
    scanDevices bluetooth = .ok devices ↔
      ∃ peripherals, bluetooth.Meets peripherals ∧
        devices = peripherals.filterMap Peripheral.device? := by
  obtain ⟨_ | e, _ | (_ | ⟨adapter, adapters⟩)⟩ := bluetooth
  · simp [Bluetooth.Meets, scanDevices, bleCall, bleResult, bind, Except.bind]
  · simp [Bluetooth.Meets, scanDevices, bleCall, bleResult, bind, Except.bind, throw, throwThe,
      MonadExceptOf.throw]
  · obtain ⟨_ | e, _ | peripherals⟩ := adapter
    · simp [Bluetooth.Meets, scanDevices, bleCall, bleResult, bind, Except.bind]
    · have hloop := foldlM_scanPeripheral peripherals [] devices
      rw [List.nil_append] at hloop
      simpa [Bluetooth.Meets, scanDevices, bleCall, bleResult, bind, Except.bind]
        using hloop
    · simp [Bluetooth.Meets, scanDevices, bleCall, bleResult, bind, Except.bind]
    · simp [Bluetooth.Meets, scanDevices, bleCall, bleResult, bind, Except.bind]
  · simp [Bluetooth.Meets, scanDevices, bleCall, bind, Except.bind]
  · simp [Bluetooth.Meets, scanDevices, bleCall, bind, Except.bind]
  · simp [Bluetooth.Meets, scanDevices, bleCall, bind, Except.bind]

/-- The device answers to the query of the user: by its address, or by a part of
its name in whatever case. -/
def DeviceInfo.AnswersTo (toLowercase : String → String) (query : String)
    (d : DeviceInfo) : Prop :=
  d.address = query ∨
    (toLowercase query).toList <:+: (toLowercase d.name).toList

theorem answersTo_iff (toLowercase : String → String) (query : String)
    (d : DeviceInfo) :
    d.answersTo toLowercase query = true ↔ d.AnswersTo toLowercase query := by
  simp [DeviceInfo.answersTo, DeviceInfo.AnswersTo]

/-- The first hit among the devices of some peripherals. -/
theorem find?_device_iff (p : DeviceInfo → Bool) (peripherals : List Peripheral)
    (device : DeviceInfo) :
    (peripherals.filterMap Peripheral.device?).find? p = some device ↔
      ∃ before q after, peripherals = before ++ q :: after ∧
        q.device? = some device ∧ p device = true ∧
        ∀ q ∈ before, ∀ d, q.device? = some d → ¬ p d = true := by
  rw [List.find?_filterMap, Option.bind_eq_some_iff]
  simp only [List.find?_eq_some_iff_append, Option.any_eq_true,
    Bool.not_eq_true', Option.any_eq_false]
  constructor
  · rintro ⟨q, ⟨⟨d, hd, hp⟩, before, after, rfl, hbefore⟩, hq⟩
    cases hd.symm.trans hq
    exact ⟨before, q, after, rfl, hq, hp, by simpa using hbefore⟩
  · rintro ⟨before, q, after, rfl, hq, hp, hbefore⟩
    exact ⟨q, ⟨⟨device, hq, hp⟩, before, after, rfl, by simpa using hbefore⟩, hq⟩

section FindDevice

variable {toLowercase : String → String} {bluetooth : Bluetooth} {query : String}
  {devices : List DeviceInfo}

theorem findDevice_of_some {d : DeviceInfo}
    (hscan : scanDevices bluetooth = .ok devices)
    (hfind : devices.find? (DeviceInfo.answersTo toLowercase query) = some d) :
    findDevice toLowercase bluetooth query = .ok (.ok d) := by
  simp only [findDevice, hscan, bind, Except.bind, hfind]
  rfl

theorem findDevice_of_none (hscan : scanDevices bluetooth = .ok devices)
    (hfind : devices.find? (DeviceInfo.answersTo toLowercase query) = none) :
    findDevice toLowercase bluetooth query =
      .ok (.error ("device '" ++ query ++ "' not found")) := by
  simp only [findDevice, hscan, bind, Except.bind, hfind]
  rfl

theorem findDevice_of_error {e : RecorderError}
    (hscan : scanDevices bluetooth = .error e) :
    findDevice toLowercase bluetooth query = .error e := by
  simp only [findDevice, hscan]
  rfl

theorem findDevice_ok_iff (device : DeviceInfo) :
    findDevice toLowercase bluetooth query = .ok (.ok device) ↔
      ∃ devices, scanDevices bluetooth = .ok devices ∧
        devices.find? (DeviceInfo.answersTo toLowercase query) =
          some device := by
  constructor
  · intro h
    rcases hscan : scanDevices bluetooth with e | devices
    · rw [findDevice_of_error hscan] at h
      cases h
    · rcases hfind : devices.find? (DeviceInfo.answersTo toLowercase query)
        with _ | d
      · rw [findDevice_of_none hscan hfind] at h
        cases h
      · rw [findDevice_of_some hscan hfind] at h
        cases h
        exact ⟨devices, rfl, hfind⟩
  · rintro ⟨devices, hscan, hfind⟩
    exact findDevice_of_some hscan hfind

theorem findDevice_error_iff (e : String) :
    findDevice toLowercase bluetooth query = .ok (.error e) ↔
      e = "device '" ++ query ++ "' not found" ∧
      ∃ devices, scanDevices bluetooth = .ok devices ∧
        devices.find? (DeviceInfo.answersTo toLowercase query) = none := by
  constructor
  · intro h
    rcases hscan : scanDevices bluetooth with e | devices
    · rw [findDevice_of_error hscan] at h
      cases h
    · rcases hfind : devices.find? (DeviceInfo.answersTo toLowercase query)
        with _ | d
      · rw [findDevice_of_none hscan hfind] at h
        cases h
        exact ⟨rfl, devices, rfl, hfind⟩
      · rw [findDevice_of_some hscan hfind] at h
        cases h
  · rintro ⟨rfl, devices, hscan, hfind⟩
    exact findDevice_of_none hscan hfind

end FindDevice

/-- **What `mike` finds**: the device of the first peripheral that advertises the
service and answers to the query, an address in full no sooner than a part of a
name. It reports that there is none exactly if none does. -/
theorem findDevice_spec (toLowercase : String → String) (bluetooth : Bluetooth)
    (query : String) :
    (∀ device, findDevice toLowercase bluetooth query = .ok (.ok device) ↔
      ∃ before p after, bluetooth.Meets (before ++ p :: after) ∧
        p.device? = some device ∧ device.AnswersTo toLowercase query ∧
        ∀ q ∈ before, ∀ d, q.device? = some d →
          ¬ d.AnswersTo toLowercase query) ∧
    ∀ e, findDevice toLowercase bluetooth query = .ok (.error e) ↔
      e = "device '" ++ query ++ "' not found" ∧
      ∃ peripherals, bluetooth.Meets peripherals ∧
        ∀ p ∈ peripherals, ∀ d, p.device? = some d →
          ¬ d.AnswersTo toLowercase query := by
  simp only [findDevice_ok_iff, findDevice_error_iff, scanDevices_ok_iff,
    ← answersTo_iff]
  constructor
  · intro device
    constructor
    · rintro ⟨_, ⟨peripherals, hmeets, rfl⟩, hfind⟩
      obtain ⟨before, p, after, rfl, hp⟩ :=
        (find?_device_iff _ peripherals device).mp hfind
      exact ⟨before, p, after, hmeets, hp⟩
    · rintro ⟨before, p, after, hmeets, hp⟩
      exact ⟨_, ⟨_, hmeets, rfl⟩,
        (find?_device_iff _ _ device).mpr ⟨before, p, after, rfl, hp⟩⟩
  · intro e
    refine and_congr_right fun _ => ?_
    constructor
    · rintro ⟨_, ⟨peripherals, hmeets, rfl⟩, hfind⟩
      rw [List.find?_eq_none] at hfind
      refine ⟨peripherals, hmeets, ?_⟩
      intro p hp d hd
      exact hfind d (List.mem_filterMap.mpr ⟨p, hp, hd⟩)
    · rintro ⟨peripherals, hmeets, hnone⟩
      refine ⟨_, ⟨peripherals, hmeets, rfl⟩, ?_⟩
      rw [List.find?_eq_none]
      intro d hd
      obtain ⟨p, hp, hd⟩ := List.mem_filterMap.mp hd
      exact hnone p hp d hd

/-! ## Connecting -/

/-- `c` is the first of `chars` with `p`. -/
def IsFirst (p : Characteristic → Prop) (chars : List Characteristic)
    (c : Characteristic) : Prop :=
  p c ∧ ∃ before after, chars = before ++ c :: after ∧ ∀ b ∈ before, ¬ p b

/-- `c` is the first with `p` under the service of the recorder, or there is
none there and it is the first anywhere. -/
def Preferred (p : Characteristic → Prop) (chars : List Characteristic)
    (c : Characteristic) : Prop :=
  IsFirst (fun c => c.serviceUuid = serviceUuid ∧ p c) chars c ∨
    (∀ c ∈ chars, c.serviceUuid = serviceUuid → ¬ p c) ∧ IsFirst p chars c

/-- A characteristic that takes writes, of one type or the other. -/
def Characteristic.Writable (c : Characteristic) : Prop :=
  c.properties.write = true ∨ c.properties.writeWithoutResponse = true

def Characteristic.Notifies (c : Characteristic) : Prop :=
  c.properties.notify = true

theorem find?_eq_some_iff_isFirst (p : Characteristic → Bool)
    (chars : List Characteristic) (c : Characteristic) :
    chars.find? p = some c ↔ IsFirst (fun c => p c = true) chars c := by
  rw [List.find?_eq_some_iff_append, IsFirst]
  simp only [Bool.not_eq_true', Bool.not_eq_true]

theorem preferService_some (p : Characteristic → Bool)
    (chars : List Characteristic) (c : Characteristic) :
    preferService p chars = some c ↔
      Preferred (fun c => p c = true) chars c := by
  rw [preferService, Option.or_eq_some_iff, List.find?_filter,
    find?_eq_some_iff_isFirst, find?_eq_some_iff_isFirst, List.find?_eq_none,
    Preferred]
  simp

theorem preferService_none (p : Characteristic → Bool)
    (chars : List Characteristic) :
    preferService p chars = none ↔ ∀ c ∈ chars, ¬ p c = true := by
  rw [preferService, Option.or_eq_none_iff, List.find?_eq_none,
    List.find?_eq_none]
  refine ⟨fun h => h.2, fun h => ⟨?_, h⟩⟩
  exact fun c hc => h c (List.mem_filter.mp hc).1

theorem writable_iff (c : Characteristic) :
    c.writable = true ↔ c.Writable := Bool.or_eq_true_iff

theorem notifies_iff (c : Characteristic) :
    c.notifies = true ↔ c.Notifies := Iff.rfl

/-- Whether a characteristic takes writes of a type. -/
def WriteType.SupportedBy (type : WriteType) (c : Characteristic) : Prop :=
  match type with
  | .withResponse => c.properties.write = true
  | .withoutResponse => c.properties.writeWithoutResponse = true

/-- A connection writes in a way that its characteristic supports. -/
theorem BleConnection.writeType_supported (conn : BleConnection) :
    conn.writeType.SupportedBy conn.writeChar := by
  have hwritable := (writable_iff _).mp conn.writable
  rw [writeType]
  split
  · next hwrite => exact hwrite
  · next hwrite => exact hwritable.resolve_left hwrite

/-- The four calls of a connection succeed. -/
structure Peripheral.Connects (p : Peripheral) : Prop where
  connect : p.connect = none
  discoverServices : p.discoverServices = none
  subscribe : p.subscribe = none
  notifications : p.notifications = none

/-- A call under `?` in front of the rest. -/
theorem bleCall_bind_ok {α : Type} (outcome : Option String)
    (f : Unit → Except RecorderError α) (a : α) :
    (bleCall outcome >>= f) = .ok a ↔ outcome = none ∧ f () = .ok a := by
  rcases outcome with _ | e
  · simp [bleCall, bind, Except.bind]
  · simp [bleCall, bind, Except.bind]

/-- The choices of a connection, with its calls out of the way. -/
theorem connect_choices (device : DeviceInfo) (conn : BleConnection) :
    connect device = .ok conn ↔
      device.peripheral.Connects ∧ conn.peripheral = device.peripheral ∧
      preferService Characteristic.writable
        device.peripheral.characteristics = some conn.writeChar ∧
      preferService Characteristic.notifies
        device.peripheral.characteristics = some conn.notifyChar := by
  simp only [connect, bleCall_bind_ok]
  split
  · next hwrite => simp [hwrite, throw, throwThe, MonadExceptOf.throw]
  · next writeChar hwrite =>
      split
      · next hnotify => simp [hnotify, throw, throwThe, MonadExceptOf.throw]
      · next notifyChar hnotify =>
          simp only [bleCall_bind_ok, hwrite, hnotify, Option.some.injEq]
          constructor
          · rintro ⟨hconnect, hdiscover, hsubscribe, hnotifications, hconn⟩
            cases hconn
            exact ⟨⟨hconnect, hdiscover, hsubscribe, hnotifications⟩, rfl, rfl,
              rfl⟩
          · rintro ⟨⟨hconnect, hdiscover, hsubscribe, hnotifications⟩, hp, hw,
              hn⟩
            refine ⟨hconnect, hdiscover, hsubscribe, hnotifications, ?_⟩
            obtain ⟨peripheral, _, _, _, _⟩ := conn
            cases hp
            cases hw
            cases hn
            rfl

/-- **What a connection takes**: it is made exactly if the calls of the
peripheral succeed and it has a characteristic that takes writes and one that
notifies; it then has the preferred ones, and writes to its own in a way that
one supports. -/
theorem connect_spec (device : DeviceInfo) :
    (∀ conn, connect device = .ok conn ↔
      device.peripheral.Connects ∧ conn.peripheral = device.peripheral ∧
      Preferred Characteristic.Writable device.peripheral.characteristics
        conn.writeChar ∧
      Preferred Characteristic.Notifies device.peripheral.characteristics
        conn.notifyChar) ∧
    ((∃ conn, connect device = .ok conn) ↔
      device.peripheral.Connects ∧
      (∃ c ∈ device.peripheral.characteristics, c.Writable) ∧
      ∃ c ∈ device.peripheral.characteristics, c.Notifies) ∧
    ∀ conn, connect device = .ok conn →
      conn.writeType.SupportedBy conn.writeChar := by
  refine ⟨fun conn => ?_, ?_, fun conn _ => conn.writeType_supported⟩
  · rw [connect_choices, preferService_some, preferService_some]
    simp only [writable_iff, notifies_iff]
  · have hsome : ∀ p, (∃ c ∈ device.peripheral.characteristics, p c = true) ↔
        ∃ c, preferService p device.peripheral.characteristics = some c := by
      intro p
      rw [← Option.ne_none_iff_exists', Ne, preferService_none]
      push Not
      rfl
    simp only [← writable_iff, ← notifies_iff, hsome]
    constructor
    · rintro ⟨conn, hconn⟩
      obtain ⟨hconnects, -, hwrite, hnotify⟩ :=
        (connect_choices device conn).mp hconn
      exact ⟨hconnects, ⟨_, hwrite⟩, ⟨_, hnotify⟩⟩
    · rintro ⟨hconnects, ⟨writeChar, hwrite⟩, ⟨notifyChar, hnotify⟩⟩
      exact ⟨⟨device.peripheral, writeChar, notifyChar, preferService_holds hwrite,
        preferService_holds hnotify⟩,
        (connect_choices device _).mpr ⟨hconnects, rfl, hwrite, hnotify⟩⟩

end MicRs
