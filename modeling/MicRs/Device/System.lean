import MicRs.Base.Simulation
import MicRs.Device.Store
import MicRs.Session.Trace
import MicRs.Transfer.Callback

/-!
# The recorder and the device together

The two ends of a connection as one system (`System`). The device answers a
command before the operation that wrote it receives anything, so nothing is left
over between operations, and each operation of the recorder does to the system
what the operation on the store does to its abstraction
(`handshake_simulates`, `listFiles_simulates`, `downloadFile_simulates`,
`deleteFile_simulates`). Only a panic may leave answers unread, and with it the
process ends. Between operations nothing passes but the commands written and
their answers (`systemClient_hears`).
-/

namespace MicRs

open StateFrame Simulation Observer

structure System (E : Ecdh) where
  world : World
  device : Device E

variable (C : Ciphers) {E : Ecdh} (profile : Profile)

/-- An operation with the device at the other end. It writes before it receives
anything, and the answers are there when it does. -/
def overDevice {α : Type} (x : RecorderM α) : EStateM Fault (System E) α :=
  fun s =>
    let commands := (finalState (x.run s.world)).written.drop
      s.world.written.length
    let (device, answers) := s.device.receiveAll C commands
    let rx := s.world.rx ++ answers.map .notification
    match x.run { s.world with rx } with
    | .ok a world => .ok a { world, device }
    | .error e world => .error e { world, device }

/-- A new connection to the device; the files stay. -/
def System.connected (s : System E) : System E :=
  { s with world := { World.connected [] with disk := s.world.disk } }

/-- The operations of the recorder, with the device at the other end of whatever
connection is made. -/
def systemClient (E : Ecdh) : Client E.Secret (System E) where
  connect := connectThen System.connected
  handshake env secret :=
    overDevice C ((recorder C E profile).handshake env secret)
  listFiles env := overDevice C ((recorder C E profile).listFiles env)
  downloadFile progress env fileId outputDir := overDevice C
    ((recorder C E profile).downloadFile progress env fileId outputDir)
  deleteFile env fileId :=
    overDevice C ((recorder C E profile).deleteFile env fileId)

/-- A result of the recorder next to a device. -/
def withDevice {α : Type} (device : Device E) :
    EStateM.Result Fault World α → EStateM.Result Fault (System E) α
  | .ok a world => .ok a { world, device }
  | .error e world => .error e { world, device }

/-! ## The abstraction -/

def System.store (s : System E) : Store where
  recordings := s.device.recordings
  disk := s.world.disk
  paired := s.world.sessionKey.isSome
  distinct := s.device.distinct

/-- Between operations: nothing is left in the channel, and the device has the
key that the recorder has. -/
structure System.Ready (s : System E) : Prop where
  quiet : s.world.rx = []
  keys : ∀ key, s.world.sessionKey = some key → s.device.sessionKey = some key

theorem System.store_connected (s : System E) :
    s.connected.store = s.store.connected := rfl

theorem System.ready_connected (s : System E) : s.connected.Ready :=
  ⟨rfl, fun _ h => by cases h⟩

theorem System.Ready.after {s : System E} (hs : s.Ready) {world : World}
    {device : Device E} (hrx : world.rx = [])
    (hkey : world.sessionKey = s.world.sessionKey)
    (hdevice : device.sessionKey = s.device.sessionKey) :
    System.Ready { world, device } := by
  refine ⟨hrx, fun key h => ?_⟩
  exact hdevice.trans (hs.keys key (hkey.symm.trans h))

/-- What is seen from the outside when neither the files nor the key have
changed. -/
theorem System.store_after {s : System E} {world : World} (device : Device E)
    (hdisk : world.disk = s.world.disk)
    (hkey : world.sessionKey = s.world.sessionKey) :
    System.store { world, device } =
      { s.store with
        recordings := device.recordings
        distinct := device.distinct } := by
  ext1
  · rfl
  · exact hdisk
  · exact congrArg Option.isSome hkey

/-! ## An operation with the device -/

variable {C} in
theorem overDevice_run {α : Type} {x : RecorderM α} {s : System E}
    {commands answers : List (List UInt8)} {device : Device E}
    (hwritten : (finalState (x.run s.world)).written =
      s.world.written ++ commands)
    (hanswer : s.device.receiveAll C commands = (device, answers)) :
    (overDevice C x).run s = withDevice device (x.run { s.world with
      rx := s.world.rx ++ answers.map .notification }) := by
  show overDevice C x s = _
  rw [overDevice, hwritten, List.drop_left]
  simp only [hanswer]
  rfl

/-- An operation that fails before it writes. -/
theorem overDevice_unsent {α : Type} {x : RecorderM α} {s : System E}
    {fault : Fault} (h : x.run s.world = .error fault s.world) :
    (overDevice C x).run s = .error fault s := by
  have hwritten : (finalState (x.run s.world)).written =
      s.world.written ++ [] := by rw [h, List.append_nil]; rfl
  rw [overDevice_run hwritten (Device.receiveAll_nil C s.device), List.map_nil,
    List.append_nil, h]
  rfl

variable {C} in
/-- An operation that writes its command into a quiet channel. -/
theorem overDevice_sent {α : Type} {x : RecorderM α} {s : System E}
    {env : Env} {command : List UInt8} {answers : List (List UInt8)}
    {device : Device E} (hs : s.Ready) (hwrite : env.write = none)
    (hwritten : (finalState (x.run s.world)).written =
      s.world.written ++ sent env command)
    (hanswer : s.device.receiveAll C [command] = (device, answers)) :
    (overDevice C x).run s = withDevice device (x.run { s.world with
      rx := answers.map .notification }) := by
  rw [sent, hwrite] at hwritten
  rw [overDevice_run hwritten hanswer, hs.quiet, List.nil_append]

/-! ## The operations -/

/-- What does not look at the state simulates itself. -/
theorem simulates_result {σ τ α : Type} {fatal : Fault → Prop} {inv : σ → Prop}
    {abs : σ → τ} (x : Except RecorderError α) :
    Simulates fatal inv abs (liftM x : EStateM Fault σ α)
      (liftM x : EStateM Fault τ α) := by
  intro s hs
  rcases x with e | a
  · exact ⟨Or.inr hs, rfl⟩
  · exact ⟨hs, rfl⟩

theorem connect_simulates (device : DeviceInfo) :
    Simulates Fault.IsPanic (System.Ready (E := E)) System.store
      (connectThen System.connected device)
      (connectThen Store.connected device) :=
  (simulates_result _).bind fun _ =>
    .modify (fun s _ => s.ready_connected) System.store_connected

theorem handshake_simulates (hE : E.Lawful) (env : Env) (secret : E.Secret) :
    Simulates Fault.IsPanic (System.Ready (E := E)) System.store
      (overDevice C (handshake C E env secret))
      (storeHandshake env) := by
  intro s hs
  rcases hwrite : env.write with _ | e
  · obtain ⟨p, q, -, hq, hanswer⟩ := s.device.answer_handshake C hE secret
    rw [overDevice_sent hs hwrite (handshake_written C E env secret _) hanswer]
    obtain ⟨w', hrun, hrx, hdisk, hkey⟩ := handshake_answered C hE secret hq
      hwrite (w := { s.world with rx := [.notification (handshakeAnswer
        (E.publicKeyBytes s.device.secret) (E.diffieHellman secret q))] }) rfl
    rw [List.map_cons, List.map_nil, hrun, storeHandshake_run, hwrite]
    refine ⟨⟨hrx, fun key h => hkey.symm.trans h⟩, ?_⟩
    have hstore : s.store.pair = System.store { world := w', device := { s.device with
          sessionKey := some (sharedKey C secret q) } } := by
      ext1
      · rfl
      · exact hdisk.symm
      · exact (congrArg Option.isSome hkey).symm
    exact congrArg (EStateM.Result.ok ()) hstore
  · have hfails : (handshake C E env secret).run s.world =
        .error (.error (.ble e)) s.world := by
      simp [handshake, sendAndRecv, send, hwrite]
    rw [overDevice_unsent C hfails]
    exact ⟨Or.inr hs, by rw [storeHandshake_run, hwrite]; rfl⟩

theorem listFiles_simulates (env : Env) :
    Simulates Fault.IsPanic (System.Ready (E := E)) System.store
      (overDevice C (listFiles profile env)) (storeListFiles profile env) := by
  intro s hs
  rw [storeListFiles_run]
  rcases hwrite : env.write with _ | e
  · have hanswer := s.device.receiveAll_packet C (.fileListRequest 0)
    rw [overDevice_sent hs hwrite (listFiles_written profile env _) hanswer,
      List.map_cons, List.map_nil]
    have hrecordings : s.store.recordings = s.device.recordings := rfl
    dsimp only
    by_cases hlistable : profile = .release ∨
        ∀ r ∈ s.device.recordings, r.Listable
    · obtain ⟨w', hrun, hrx, hdisk, hkey⟩ := listFiles_answered profile s.device
        hwrite (w := { s.world with
          rx := [.notification s.device.listMessage] }) rfl hlistable
      have hstore := System.store_after s.device hdisk hkey
      rw [hrun, hrecordings, if_pos hlistable]
      exact ⟨hs.after hrx hkey rfl,
        congrArg (EStateM.Result.ok _) hstore.symm⟩
    · rw [not_or] at hlistable
      obtain rfl := Profile.eq_dev hlistable.1
      obtain ⟨w', hrun, hrx, hdisk, hkey⟩ := listFiles_overflows s.device
        hwrite (w := { s.world with
          rx := [.notification s.device.listMessage] }) rfl hlistable.2
      have hstore := System.store_after s.device hdisk hkey
      rw [hrun, hrecordings, if_neg (not_or.mpr hlistable)]
      exact ⟨Or.inr (hs.after hrx hkey rfl),
        congrArg (EStateM.Result.error _) hstore.symm⟩
  · have hfails : (listFiles profile env).run s.world =
        .error (.error (.ble e)) s.world := by
      simp [listFiles, sendAndRecv, send, hwrite]
    rw [overDevice_unsent C hfails]
    exact ⟨Or.inr hs, rfl⟩

theorem deleteFile_simulates (env : Env) (fileId : UInt32) :
    Simulates Fault.IsPanic (System.Ready (E := E)) System.store
      (overDevice C (deleteFile env fileId)) (storeDelete env fileId) := by
  intro s hs
  rcases hwrite : env.write with _ | e
  · have hanswer := s.device.receiveAll_packet C (.deleteFile fileId)
    rcases hfind : s.device.find fileId with _ | r
    · simp only [Device.answer, hfind] at hanswer
      rw [overDevice_sent hs hwrite (deleteFile_written env fileId _) hanswer]
      obtain ⟨w', hrun, hrx, hdisk, hkey⟩ := deleteFile_refused fileId hwrite
        (w := { s.world with
          rx := [.notification (message 0 cmdTypeFile cmdDeleteFile [])] }) rfl
      have hgone : s.store.find fileId = none := hfind
      rw [List.map_cons, List.map_nil, hrun, storeDelete_run, hwrite, hgone]
      have hstore := System.store_after s.device hdisk hkey
      exact ⟨Or.inr (hs.after hrx hkey rfl),
        congrArg (EStateM.Result.error _) hstore.symm⟩
    · simp only [Device.answer, hfind] at hanswer
      rw [overDevice_sent hs hwrite (deleteFile_written env fileId _) hanswer]
      obtain ⟨w', hrun, hrx, hdisk, hkey⟩ := deleteFile_answered fileId hwrite
        (w := { s.world with
          rx := [.notification (message 1 cmdTypeFile cmdDeleteFile [])] }) rfl
      have hthere : s.store.find fileId = some r := hfind
      rw [List.map_cons, List.map_nil, hrun, storeDelete_run, hwrite, hthere]
      have hstore := System.store_after (s.device.delete fileId) hdisk hkey
      exact ⟨hs.after hrx hkey rfl,
        congrArg (EStateM.Result.ok ()) hstore.symm⟩
  · have hfails : (deleteFile env fileId).run s.world =
        .error (.error (.ble e)) s.world := by
      simp [deleteFile, sendAndRecv, send, hwrite]
    rw [overDevice_unsent C hfails]
    exact ⟨Or.inr hs, by rw [storeDelete_run, hwrite]; rfl⟩

/-! ## Downloading -/

/-- Saving a recording does to the disk what storing its file does. -/
theorem saveFile_simulates (env : Env) (r : Recording) (outputDir : Path)
    (device : Device E) {world : World}
    (hready : System.Ready { world, device }) :
    let result := withDevice device
      ((saveFile profile env r.id outputDir r.plain).run world)
    System.Ready (finalState result) ∧
      (storeFile env (opusPath outputDir r.id) r.container).run
        (System.store { world, device }) =
          abstractResult System.store result := by
  have hwrap := r.wrapOggOpus_plain profile
  dsimp only
  rw [storeFile_run]
  rcases hcreate : env.create with _ | e
  · rcases hwriteAll : env.writeAll with _ | ⟨n, e⟩
    · rcases hflush : env.flush with _ | ⟨n, e⟩
      · rw [saveFile_fine hwrap hcreate hwriteAll hflush]
        exact ⟨⟨hready.quiet, hready.keys⟩, rfl⟩
      · rw [saveFile_write_fails hwrap ⟨hcreate, Or.inr ⟨hwriteAll, hflush⟩⟩]
        exact ⟨⟨hready.quiet, hready.keys⟩, rfl⟩
    · rw [saveFile_write_fails hwrap ⟨hcreate, Or.inl hwriteAll⟩]
      exact ⟨⟨hready.quiet, hready.keys⟩, rfl⟩
  · have hfails : (saveFile profile env r.id outputDir r.plain).run world =
        .error (.error (.io e)) world := by
      simp [saveFile, hwrap, createFile, hcreate]
    rw [hfails]
    exact ⟨hready, rfl⟩

/-- A transfer is saved as storing its file saves it, unless the callback
panics on one of its reports. -/
theorem download_present (progress : Callback) {env : Env} (r : Recording)
    (outputDir : Path) {key : Vector UInt8 32} {s : System E} (hs : s.Ready)
    (hkey : s.world.sessionKey = some key) (hwrite : env.write = none) :
    let result := withDevice s.device
      ((recorderDownloadFileWith C profile progress env r.id outputDir).run
        { s.world with
          rx := (s.device.transfer C key r).map .notification })
    Upholds Fault.IsPanic System.Ready result ∧
      (r.reportTo progress = .ok () →
        (storeFile env (opusPath outputDir r.id) r.container).run s.store =
          abstractResult System.store result) ∧
      ∀ p, r.reportTo progress = .error p →
        .error (.panic p) s.store = abstractResult System.store result := by
  obtain ⟨w', hrun, hrx, hdisk, hkept, hlog⟩ := downloadFile_answered C
    profile s.device r outputDir hwrite (w := { s.world with
      rx := (s.device.transfer C key r).map .notification }) rfl
  rw [← recorderDownloadFile_key C profile (w := { s.world with
    rx := (s.device.transfer C key r).map .notification }) hkey] at hrun
  -- Saving adds nothing to the log.
  have hreports : (finalState ((saveFile profile env r.id outputDir
      r.plain).run w')).log.reports = s.world.log.reports ++ r.reports := by
    rw [saveFile_keeps ignoresDisk_log, hlog, r.logged_reports]
  rw [← hrun] at hreports
  obtain ⟨hheard, hpanics⟩ :=
    (recorderDownloadFile_observes C profile progress env r.id outputDir).run
      hreports
  dsimp only
  rcases hreport : r.reportTo progress with p | _
  · obtain ⟨w₁, hpanic⟩ := hpanics p hreport
    have hdisk₁ := recorderDownloadFile_panic_disk C profile progress hpanic
    have hkey₁ := (recorderDownloadFile_keeps C profile progress env r.id
      outputDir).error hpanic
    have hstore := System.store_after s.device hdisk₁ hkey₁
    rw [hpanic]
    refine ⟨Or.inl ⟨p, rfl⟩, fun h => (by cases h), fun p' h => ?_⟩
    cases h
    exact congrArg (EStateM.Result.error _) hstore.symm
  · have hsave := saveFile_simulates profile env r outputDir s.device
      (hs.after hrx hkept rfl)
    rw [System.store_after s.device hdisk hkept] at hsave
    rw [hheard hreport, hrun]
    exact ⟨.of_inv hsave.1, fun _ => hsave.2, fun p h => (by cases h)⟩

/-- A recording that is not there is reported, and nothing is saved. -/
theorem download_missing (progress : Callback) {env : Env} (fileId : UInt32)
    (outputDir : Path) {key : Vector UInt8 32} {s : System E} (hs : s.Ready)
    (hkey : s.world.sessionKey = some key) (hwrite : env.write = none) :
    let result := withDevice s.device
      ((recorderDownloadFileWith C profile progress env fileId outputDir).run
        { s.world with
          rx := [.notification (missingHeader C key fileId)] })
    Upholds Fault.IsPanic System.Ready result ∧
      .error (.error (.fileNotExists fileId)) s.store =
        abstractResult System.store result := by
  obtain ⟨w', hrun, hrx, hdisk, hkept, hlog⟩ := downloadFile_missing C
    profile fileId key outputDir hwrite (w := { s.world with
      rx := [.notification (missingHeader C key fileId)] }) rfl
  rw [← recorderDownloadFile_key C profile (w := { s.world with
    rx := [.notification (missingHeader C key fileId)] }) hkey] at hrun
  have hsilent := (recorderDownloadFile_observes C profile progress env fileId
    outputDir).silent (s := { s.world with
      rx := [.notification (missingHeader C key fileId)] })
    (by rw [hrun]; exact congrArg Log.reports hlog)
  have hstore := System.store_after s.device hdisk hkept
  dsimp only
  rw [hsilent, hrun]
  exact ⟨Or.inr (hs.after hrx hkept rfl),
    congrArg (EStateM.Result.error _) hstore.symm⟩

/-- **A download of the recorder does what it is for.** -/
theorem downloadFile_simulates (progress : Callback) (env : Env)
    (fileId : UInt32) (outputDir : Path) :
    Simulates Fault.IsPanic (System.Ready (E := E)) System.store
      (overDevice C
        (recorderDownloadFileWith C profile progress env fileId outputDir))
      (storeDownload progress env fileId outputDir) := by
  intro s hs
  have hpaired : s.store.paired = s.world.sessionKey.isSome := rfl
  rw [storeDownload_run, hpaired]
  rcases hkey : s.world.sessionKey with _ | key
  · rw [overDevice_unsent C (recorderDownloadFile_no_key C profile hkey)]
    exact ⟨Or.inr hs, rfl⟩
  rcases hwrite : env.write with _ | e
  · have hwritten := recorderDownloadFile_written C profile progress env fileId
      outputDir s.world
    rw [hkey, Option.isSome_some, if_pos rfl] at hwritten
    have hanswer := s.device.receiveAll_packet C (.fileHeaderRequest fileId 0)
    have hdevice := hs.keys key hkey
    rcases hfind : s.device.find fileId with _ | r
    · have hgone : s.store.find fileId = none := hfind
      simp only [Device.answer, hdevice, hfind] at hanswer
      rw [overDevice_sent hs hwrite hwritten hanswer, hgone]
      exact download_missing C profile progress fileId outputDir hs hkey hwrite
    · have hthere : s.store.find fileId = some r := hfind
      obtain ⟨-, rfl⟩ := (s.store.find_eq_some_iff fileId r).mp hthere
      simp only [Device.answer, hdevice, hfind] at hanswer
      rw [overDevice_sent hs hwrite hwritten hanswer, hthere]
      obtain ⟨hready, hpassed, hpanics⟩ := download_present C profile progress
        r outputDir hs hkey hwrite
      refine ⟨hready, ?_⟩
      rcases hreport : r.reportTo progress with p | _
      · simpa only [Option.isSome_some, hreport] using hpanics p hreport
      · simpa only [Option.isSome_some, hreport] using hpassed hreport
  · have hfails : (recorderDownloadFileWith C profile progress env fileId
        outputDir).run s.world = .error (.error (.ble e)) s.world := by
      rw [recorderDownloadFile_key C profile hkey]
      simp [downloadFileWith, send, hwrite]
    rw [overDevice_unsent C hfails]
    exact ⟨Or.inr hs, rfl⟩

/-! ## What the device hears -/

/-- The device makes of the commands written, in their order, what it makes of
them, and changes in no other way. -/
def Hears {α : Type} (x : EStateM Fault (System E) α) : Prop :=
  ∀ s, ∃ commands,
    (finalState (x.run s)).world.written = s.world.written ++ commands ∧
    (finalState (x.run s)).device = (s.device.receiveAll C commands).1

theorem finalState_withDevice {α : Type} (device : Device E)
    (result : EStateM.Result Fault World α) :
    finalState (withDevice device result) =
      { world := finalState result, device } := by
  rcases result with ⟨a, w⟩ | ⟨e, w⟩ <;> rfl

/-- An operation writes the same with the answers at hand as without them. -/
theorem overDevice_hears {α : Type} {x : RecorderM α}
    {commands : World → List (List UInt8)}
    (hwritten : ∀ w, (finalState (x.run w)).written = w.written ++ commands w)
    (hrx : ∀ (w : World) rx, commands { w with rx } = commands w) :
    Hears C (overDevice C x : EStateM Fault (System E) α) := by
  intro s
  refine ⟨commands s.world, ?_⟩
  rw [overDevice_run (hwritten s.world) (Prod.eta _).symm, finalState_withDevice]
  exact ⟨(hwritten _).trans (congrArg _ (hrx s.world _)), rfl⟩

/-- **The operations of the system are those of its two ends**: the device hears
what the recorder writes. -/
theorem systemClient_hears :
    (∀ env secret, Hears C ((systemClient C profile E).handshake env secret)) ∧
    (∀ env, Hears C ((systemClient C profile E).listFiles env)) ∧
    (∀ progress env fileId outputDir, Hears C
      ((systemClient C profile E).downloadFile progress env fileId outputDir)) ∧
    ∀ env fileId, Hears C ((systemClient C profile E).deleteFile env fileId) := by
  refine ⟨fun env secret => ?_, fun env => ?_,
    fun progress env fileId outputDir => ?_, fun env fileId => ?_⟩
  · exact overDevice_hears C (handshake_written C E env secret) fun _ _ => rfl
  · exact overDevice_hears C (listFiles_written profile env) fun _ _ => rfl
  · exact overDevice_hears C
      (recorderDownloadFile_written C profile progress env fileId outputDir)
      fun _ _ => rfl
  · exact overDevice_hears C (deleteFile_written env fileId) fun _ _ => rfl

end MicRs
