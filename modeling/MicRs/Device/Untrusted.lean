import MicRs.Device.System
import MicRs.Session.Files
import MicRs.Session.Listing

/-!
# The programs with any device

What the programs do when nothing is known about the other end: the
notifications are whatever they are, and any call may fail. The example of the
README deletes a recording only behind a download that returned: the device has
said that the file is complete already, or it has ended the transfer and the
container of the slices received by then is on the disk
(`readmeExample_deletes`). The other programs delete nothing
(`programs_noDelete`). When `download_all.rs` returns, no device was found or
each listed file is what the last transfer that the device has ended has made
of it (`downloadAll_saved`).
-/

namespace MicRs

open StateFrame Observer

variable (C : Ciphers) {E : Ecdh} (profile : Profile)

/-! ## Commands that delete -/

theorem buildCommand_kind {cmdType cmdId cmdType' cmdId' : UInt8}
    {payload payload' : List UInt8}
    (h : buildCommand cmdType cmdId payload =
      buildCommand cmdType' cmdId' payload') :
    cmdType = cmdType' ∧ cmdId = cmdId' := by
  simp only [buildCommand, buildHeader, List.cons_append, List.cons.injEq] at h
  exact ⟨h.2.2.2.2.2.1, h.2.2.2.2.2.2.1⟩

theorem deleteFileCommand_inj {fileId fileId' : UInt32}
    (h : deleteFileCommand fileId = deleteFileCommand fileId') :
    fileId = fileId' := by
  have hread := (delimits_packet (.deleteFile fileId)).reads []
  rw [show (SentCommand.deleteFile fileId).packet =
      (SentCommand.deleteFile fileId').packet from h,
    (delimits_packet (.deleteFile fileId')).reads []] at hread
  cases hread
  rfl

/-- A command of another kind, written or not, is no deletion. -/
theorem not_mem_sent {cmdType cmdId : UInt8}
    (hkind : ¬ (cmdType = cmdTypeFile ∧ cmdId = cmdDeleteFile)) (env : Env)
    (payload : List UInt8) (fileId : UInt32) :
    deleteFileCommand fileId ∉ sent env (buildCommand cmdType cmdId payload) := by
  intro hmem
  rw [sent] at hmem
  rcases hwrite : env.write with _ | e
  · rw [hwrite, List.mem_singleton] at hmem
    obtain ⟨htype, hid⟩ := buildCommand_kind hmem
    exact hkind ⟨htype.symm, hid.symm⟩
  · rw [hwrite] at hmem
    cases hmem

/-- From `w` to `w'` commands are written, and no deletion is among them. -/
def World.NoDelete (w w' : World) : Prop :=
  ∃ sent, w'.written = w.written ++ sent ∧
    ∀ fileId, deleteFileCommand fileId ∉ sent

theorem World.NoDelete.refl (w : World) : w.NoDelete w :=
  ⟨[], (List.append_nil _).symm, fun _ => List.not_mem_nil⟩

theorem World.NoDelete.trans (w w₁ w₂ : World) (h₁ : w.NoDelete w₁)
    (h₂ : w₁.NoDelete w₂) : w.NoDelete w₂ := by
  obtain ⟨sent₁, hwritten₁, hnone₁⟩ := h₁
  obtain ⟨sent₂, hwritten₂, hnone₂⟩ := h₂
  refine ⟨sent₁ ++ sent₂, ?_, fun fileId hmem => ?_⟩
  · rw [hwritten₂, hwritten₁, List.append_assoc]
  · exact (List.mem_append.mp hmem).elim (hnone₁ fileId) (hnone₂ fileId)

theorem handshake_noDelete (env : Env) (secret : E.Secret) (w : World) :
    Moves World.NoDelete (handshake C E env secret) w :=
  ⟨_, handshake_written C E env secret w, not_mem_sent (by decide) env _⟩

theorem listFiles_noDelete (env : Env) (w : World) :
    Moves World.NoDelete (listFiles profile env) w :=
  ⟨_, listFiles_written profile env w, not_mem_sent (by decide) env _⟩

theorem download_noDelete (progress : Callback) (env : Env) (fileId : UInt32)
    (outputDir : Path) (w : World) :
    Moves World.NoDelete
      (recorderDownloadFileWith C profile progress env fileId outputDir) w := by
  refine ⟨_, recorderDownloadFile_written C profile progress env fileId
    outputDir w, fun fileId' hmem => ?_⟩
  split_ifs at hmem
  · exact not_mem_sent (by decide) env _ fileId' hmem
  · cases hmem

theorem noDelete_result {α : Type} (x : Except RecorderError α) (w : World) :
    Moves World.NoDelete (liftM x : RecorderM α) w := by
  rcases x with e | a <;> exact World.NoDelete.refl w

/-- Nothing is written to make a connection. -/
theorem connect_noDelete (device : DeviceInfo) (w : World) :
    Moves World.NoDelete (recorderConnect device) w := by
  refine (noDelete_result _ w).bind World.NoDelete.trans fun _ w₁ _ => ?_
  exact ⟨[], (List.append_nil _).symm, fun _ => List.not_mem_nil⟩

theorem downloadAll_noDelete (env : ProgramEnv) (secret : E.Secret)
    (w : World) :
    Moves World.NoDelete
      (downloadAll (recorder C E profile) env profile secret) w := by
  have htrans := World.NoDelete.trans
  refine (noDelete_result _ w).bind htrans fun devices w₁ _ => ?_
  rcases devices with _ | ⟨device, devices⟩
  · exact World.NoDelete.refl w₁
  refine (connect_noDelete device w₁).bind htrans fun _ w₂ _ => ?_
  refine (handshake_noDelete C _ secret w₂).bind htrans fun _ w₃ _ => ?_
  refine (listFiles_noDelete profile _ w₃).bind htrans fun files w₄ _ => ?_
  split
  · exact noDelete_result _ w₄
  · refine (noDelete_result _ w₄).bind htrans fun _ w₅ _ => ?_
    refine Moves.bind htrans ?_ fun _ w₆ _ => noDelete_result _ w₆
    refine Moves.forM .refl htrans (fun _ w => ?_) _ w₅
    exact (download_noDelete C profile _ _ _ _ w).bind htrans fun _ w' _ =>
      World.NoDelete.refl w'

/-- A command of `mike` deletes nothing where its part with the device does
not. -/
theorem onDevice_noDelete {α : Type} {command : RecorderM α}
    (hcommand : ∀ w, Moves World.NoDelete command w) (env : ProgramEnv)
    (toLowercase : String → String) (query : String) (w : World) :
    Moves World.NoDelete
      (onDevice (recorder C E profile) env toLowercase query command) w := by
  have htrans := World.NoDelete.trans
  refine (noDelete_result _ w).bind htrans fun found w₁ _ => ?_
  rcases found with e | device
  · exact World.NoDelete.refl w₁
  · refine (connect_noDelete device w₁).bind htrans fun _ w₂ _ => ?_
    exact (hcommand w₂).bind htrans fun _ w₃ _ => World.NoDelete.refl w₃

theorem mikeList_noDelete (env : ProgramEnv) (toLowercase : String → String)
    (query : String) (secret : E.Secret) (w : World) :
    Moves World.NoDelete
      (mikeList (recorder C E profile) env toLowercase query secret) w := by
  have htrans := World.NoDelete.trans
  refine onDevice_noDelete C profile (fun w => ?_) env toLowercase query w
  refine (handshake_noDelete C _ secret w).bind htrans fun _ w₁ _ => ?_
  refine (listFiles_noDelete profile _ w₁).bind htrans fun _ w₂ _ => ?_
  exact (noDelete_result _ w₂).bind htrans fun _ w₃ _ => World.NoDelete.refl w₃

theorem mikeDownload_noDelete (env : ProgramEnv)
    (toLowercase : String → String) (query : String) (secret : E.Secret)
    (fileId : UInt32) (output : Path) (w : World) :
    Moves World.NoDelete (mikeDownload (recorder C E profile) env toLowercase
      query secret fileId output) w := by
  have htrans := World.NoDelete.trans
  refine onDevice_noDelete C profile (fun w => ?_) env toLowercase query w
  refine (handshake_noDelete C _ secret w).bind htrans fun _ w₁ _ => ?_
  refine (noDelete_result _ w₁).bind htrans fun _ w₂ _ => ?_
  refine (download_noDelete C profile _ _ _ _ w₂).bind htrans fun _ w₃ _ => ?_
  exact (noDelete_result _ w₃).bind htrans fun _ w₄ _ => World.NoDelete.refl w₄

/-- **Only the example of the README deletes**: no run of another program puts a
deletion on the air, whatever it meets and however it ends. -/
theorem programs_noDelete (env : ProgramEnv) (secret : E.Secret) (w : World) :
    Moves World.NoDelete
        (downloadAll (recorder C E profile) env profile secret) w ∧
      ∀ toLowercase query,
        Moves World.NoDelete
          (mikeList (recorder C E profile) env toLowercase query secret) w ∧
        ∀ fileId output, Moves World.NoDelete (mikeDownload
          (recorder C E profile) env toLowercase query secret fileId output) w :=
  ⟨downloadAll_noDelete C profile env secret w, fun toLowercase query =>
    ⟨mikeList_noDelete C profile env toLowercase query secret w,
      fun fileId output => mikeDownload_noDelete C profile env toLowercase query
        secret fileId output w⟩⟩

/-! ## What a download leaves -/

/-- The device says that the file is there already. -/
def AlreadyComplete (env : Env) (w : World) : Prop :=
  ∃ data rest, HeaderArrives env w data rest ∧ byteAt data 95 = 3

/-- A download that returns has written its command. -/
theorem downloadFile_ok_written {env : Env} {fileId : UInt32}
    {sessionKey : Vector UInt8 32} {outputDir path : Path} {w w' : World}
    (h : (downloadFile C profile env fileId sessionKey outputDir).run w =
      .ok path w') :
    w'.written = w.written ++ [fileHeaderRequest fileId 0] := by
  obtain ⟨-, ⟨_, _, -, -, rfl⟩ | ⟨_, _, _, _, _, -, -, rfl⟩⟩ :=
    downloadFile_ok C h
  · rfl
  · rfl

/-- **What a download leaves when it returns**: the disk as it was, where the
device says that the file is complete already, or else, where the device has
ended the transfer, a file with the container of the slices received by then. -/
theorem recorder_download_ok {progress : Callback} {env : Env}
    {fileId : UInt32} {outputDir path : Path} {w w' : World}
    (h : ((recorder C E profile).downloadFile progress env fileId
      outputDir).run w = .ok path w') :
    path = opusPath outputDir fileId ∧
      w'.written = w.written ++ [fileHeaderRequest fileId 0] ∧
      ((AlreadyComplete env w ∧ w'.disk = w.disk) ∨
        ∃ bytes, Received C profile env fileId w bytes ∧
          w'.disk = w.disk.put (opusPath outputDir fileId) bytes) := by
  have hrun :=
    (recorderDownloadFile_observes C profile progress env fileId outputDir).ok h
  rcases hkey : w.sessionKey with _ | key
  · simp [recorderDownloadFileWith, hkey] at hrun
  · rw [recorderDownloadFile_key C profile hkey] at hrun
    have hwritten := downloadFile_ok_written C profile hrun
    obtain ⟨hpath, ⟨data, rest, harrives, hcode, rfl⟩ |
      ⟨data, rest, fileKey, bytes, rest', hbegins, hsaves, rfl⟩⟩ :=
      downloadFile_ok C hrun
    · exact ⟨hpath, hwritten, Or.inl ⟨⟨data, rest, harrives, hcode⟩, rfl⟩⟩
    · exact ⟨hpath, hwritten, Or.inr ⟨bytes, ⟨key, data, rest, fileKey, hkey,
        hbegins, hsaves⟩, rfl⟩⟩

/-! ## A run with a recording -/

/-- A list of one file of 20 ms. -/
def shortListMessage : List UInt8 :=
  fileListMessage (message 1 cmdTypeFile cmdGetAllFiles []) [⟨1, 20⟩] []

/-- What arrives for a key exchange, a list and the recording in it. -/
def programWorld : World :=
  .connected (.notification (handshakeAnswer zeroPoint zeroKey) ::
    .notification shortListMessage :: .notification exchangeHeader ::
    sliceTransfer [[zeroSlice sampleCiphers 0 0]])

/-- The three operations that the programs begin with, over `programWorld`. -/
theorem programWorld_run (progress : Callback)
    (hprogress : ∀ p, progress p = .ok ()) (outputDir : Path) :
    let client := recorder sampleCiphers sampleEcdh .release
    ∃ w₁ w₂ w₃ file,
      (client.handshake .fine ()).run programWorld = .ok () w₁ ∧
      (client.listFiles .fine).run w₁ = .ok [file] w₂ ∧ file.fileId = 1 ∧
      (client.downloadFile progress .fine 1 outputDir).run w₂ =
        .ok (opusPath outputDir 1) w₃ := by
  obtain ⟨hlen, hpoint, hshared⟩ :=
    handshakeAnswer_fields (show zeroPoint.length = 65 from rfl) zeroKey
  have haccepts : sampleEcdh.fromSec1Bytes
      (((handshakeAnswer zeroPoint zeroKey).drop 9).take 65) = .ok () := by
    rw [hpoint]
    rfl
  have hverified : VerifiedExchange sampleEcdh .fine () programWorld
      (handshakeAnswer zeroPoint zeroKey) (.notification shortListMessage ::
        .notification exchangeHeader ::
        sliceTransfer [[zeroSlice sampleCiphers 0 0]]) () :=
    ⟨rfl, rfl, hlen, haccepts, by rw [hshared]; rfl⟩
  let w₁ : World := programWorld.afterHandshake sampleCiphers sampleEcdh ()
    (handshakeAnswer zeroPoint zeroKey) (.notification shortListMessage ::
      .notification exchangeHeader ::
      sliceTransfer [[zeroSlice sampleCiphers 0 0]])
  have hlist := listFiles_returns .release (show Env.fine.write = none from rfl)
    (show w₁.rx = .notification shortListMessage :: _ from rfl)
    (isResponse_message 1 cmdTypeFile cmdGetAllFiles _) (by decide) (Or.inl rfl)
  rw [show entriesOf shortListMessage = [⟨1, 20⟩] from
    entriesOf_fileListMessage (by simp) (by decide) []] at hlist
  let w₂ : World := w₁.afterExchange (fileListRequest 0) shortListMessage
    (.notification exchangeHeader :: sliceTransfer [[zeroSlice sampleCiphers 0 0]])
  have hkey : w₂.sessionKey = some zeroSessionKey := by
    simp [w₂, w₁, World.afterExchange, World.afterHandshake, hshared,
      deriveSessionKey, sampleCiphers]
  have hbegins : Begins sampleCiphers .fine zeroSessionKey w₂ exchangeHeader
      (sliceTransfer [[zeroSlice sampleCiphers 0 0]]) zeroKey :=
    (isHonestHeader_headerMessage sampleCiphers _ _ _ _ _ _).begins rfl rfl
  obtain ⟨bytes, w₃, -, hdownload, -⟩ := downloadFile_delivers sampleCiphers
    .release 1 outputDir hbegins (sliceTransfer_delivers _).2 (Or.inl rfl)
  have hobserved : (recorderDownloadFileWith sampleCiphers .release progress
      .fine 1 outputDir).run w₂ = .ok (opusPath outputDir 1) w₃ := by
    rw [(recorderDownloadFile_observes sampleCiphers .release progress .fine 1
      outputDir).calm hprogress, recorderDownloadFile_key _ _ hkey]
    exact hdownload
  refine ⟨w₁, w₂, w₃, FileEntry.info ⟨1, 20⟩,
    handshake_verified sampleCiphers sampleEcdh hverified, hlist, rfl, ?_⟩
  clear_value w₂
  dsimp only [recorder]
  exact hobserved

/-! ## The program that deletes -/

theorem deleteFile_keeps_disk (env : Env) (fileId : UInt32) :
    Keeps World.disk (deleteFile env fileId) := by
  obtain ⟨k, hdelete, hk⟩ := deleteFile_exchange fileId
  rw [hdelete]
  exact (sendAndRecv_keeps ignoresChannel_disk env _).bind fun resp =>
    (hk resp).keeps

/-- Behind the download nothing but the deletion is written, and the disk is
left alone. -/
theorem readmeConnected_behind {env : ProgramEnv} {secret : E.Secret}
    {w w₁ w₂ w₃ : World} {file : FileInfo} {files : List FileInfo} {path : Path}
    (hhandshake : ((recorder C E profile).handshake env.handshake secret).run w =
      .ok () w₁)
    (hlist : ((recorder C E profile).listFiles env.listFiles).run w₁ =
      .ok (file :: files) w₂)
    (hdownload : ((recorder C E profile).downloadFile (readmeProgress profile)
      (env.downloadFile 0) file.fileId [".", "output"]).run w₂ = .ok path w₃) :
    let w' := finalState
      ((readmeConnected (recorder C E profile) env profile secret).run w)
    w'.written =
        w₃.written ++ sent env.deleteFile (deleteFileCommand file.fileId) ∧
      w'.disk = w₃.disk := by
  have hdisconnect : ∀ {γ : Type} (f : World → γ) (_ : Unit),
      Keeps f (liftM (bleCall env.disconnect) : RecorderM Unit) :=
    fun _ _ => (stateless_result _).keeps
  rw [readmeConnected, run_bind_of_ok hhandshake, run_bind_of_ok hlist]
  dsimp only
  rw [run_bind_of_ok hdownload, Keeps.after_bind (hdisconnect World.written),
    Keeps.after_bind (hdisconnect World.disk)]
  exact ⟨deleteFile_written _ _ w₃, deleteFile_keeps_disk _ _ w₃⟩

/-- Either the program deletes nothing, or it has gone through a download that
returned. -/
theorem readmeConnected_cases (env : ProgramEnv) (secret : E.Secret) (w : World) :
    let client := recorder C E profile
    w.NoDelete (finalState ((readmeConnected client env profile secret).run w)) ∨
      ∃ w₁ w₂ w₃ file files path,
        (client.handshake env.handshake secret).run w = .ok () w₁ ∧
        (client.listFiles env.listFiles).run w₁ = .ok (file :: files) w₂ ∧
        (client.downloadFile (readmeProgress profile) (env.downloadFile 0)
          file.fileId [".", "output"]).run w₂ = .ok path w₃ := by
  have htrans := World.NoDelete.trans
  dsimp only
  have hmoves₁ := handshake_noDelete C env.handshake secret w
  rcases hhandshake : ((recorder C E profile).handshake env.handshake
    secret).run w with ⟨_, w₁⟩ | ⟨e, w₁⟩
  case error =>
    rw [readmeConnected, run_bind_of_error hhandshake]
    exact Or.inl (hmoves₁.error hhandshake)
  have hmoves₂ := listFiles_noDelete profile env.listFiles w₁
  rcases hlist : ((recorder C E profile).listFiles env.listFiles).run w₁ with
    ⟨files, w₂⟩ | ⟨e, w₂⟩
  case error =>
    rw [readmeConnected, run_bind_of_ok hhandshake, run_bind_of_error hlist]
    exact Or.inl (htrans _ _ _ (hmoves₁.ok hhandshake) (hmoves₂.error hlist))
  have hlisted := htrans _ _ _ (hmoves₁.ok hhandshake) (hmoves₂.ok hlist)
  rw [readmeConnected, run_bind_of_ok hhandshake, run_bind_of_ok hlist]
  rcases files with _ | ⟨file, files⟩
  · exact Or.inl hlisted
  have hmoves₃ := download_noDelete C profile (readmeProgress profile)
    (env.downloadFile 0) file.fileId [".", "output"] w₂
  rcases hdownload : ((recorder C E profile).downloadFile
    (readmeProgress profile) (env.downloadFile 0) file.fileId
    [".", "output"]).run w₂ with ⟨path, w₃⟩ | ⟨e, w₃⟩
  case error =>
    dsimp only
    rw [run_bind_of_error hdownload]
    exact Or.inl (htrans _ _ _ hlisted (hmoves₃.error hdownload))
  exact Or.inr ⟨w₁, w₂, w₃, file, files, path, rfl, hlist, hdownload⟩

/-- A deletion among written commands of other kinds and one deletion that may
have been written is that one. -/
theorem mem_sent_deleteFile {env : Env} {fileId fileId' : UInt32}
    (h : deleteFileCommand fileId ∈ sent env (deleteFileCommand fileId')) :
    fileId = fileId' ∧ sent env (deleteFileCommand fileId') =
      [deleteFileCommand fileId'] := by
  rw [sent] at h ⊢
  rcases hwrite : env.write with _ | e
  · rw [hwrite, List.mem_singleton] at h
    exact ⟨deleteFileCommand_inj h, rfl⟩
  · rw [hwrite] at h
    cases h

/-- A deletion over the connection that is made: the first file of the list, as
the fourth and last command, behind a download that returned. -/
theorem readmeConnected_deletes {env : ProgramEnv} {secret : E.Secret}
    {w w' : World} {commands : List (List UInt8)} {fileId : UInt32}
    (hend : finalState ((readmeConnected (recorder C E profile) env profile
      secret).run w) = w')
    (hwritten : w'.written = w.written ++ commands)
    (hdelete : deleteFileCommand fileId ∈ commands) :
    commands = [ecdhPubkeyCommand (E.publicKeyBytes secret), fileListRequest 0,
        fileHeaderRequest fileId 0, deleteFileCommand fileId] ∧
      ∃ w₁ w₂ file files,
        (handshake C E env.handshake secret).run w = .ok () w₁ ∧
        (listFiles profile env.listFiles).run w₁ = .ok (file :: files) w₂ ∧
        file.fileId = fileId ∧
        ((AlreadyComplete (env.downloadFile 0) w₂ ∧ w'.disk = w.disk) ∨
          ∃ bytes, Received C profile (env.downloadFile 0) fileId w₂ bytes ∧
            w'.disk = w.disk.put (opusPath [".", "output"] fileId) bytes) := by
  have hcases := readmeConnected_cases C profile env secret w
  dsimp only at hcases
  rw [hend] at hcases
  rcases hcases with ⟨others, hothers, hnone⟩ |
    ⟨w₁, w₂, w₃, file, files, path, hhandshake, hlist, hdownload⟩
  · rw [hwritten, List.append_cancel_left_eq] at hothers
    exact absurd (hothers ▸ hdelete) (hnone fileId)
  · obtain ⟨hsent, hdisk⟩ :=
      readmeConnected_behind C profile hhandshake hlist hdownload
    rw [hend] at hsent hdisk
    obtain ⟨resp, rest, devicePublic, -, rfl⟩ := handshake_ok C E hhandshake
    obtain ⟨-, listing, rest', -, -, -, rfl⟩ := listFiles_ok profile hlist
    obtain ⟨-, hwritten₃, hdisk₃⟩ := recorder_download_ok C profile hdownload
    have hcommands : commands = [ecdhPubkeyCommand (E.publicKeyBytes secret),
        fileListRequest 0, fileHeaderRequest file.fileId 0] ++
        sent env.deleteFile (deleteFileCommand file.fileId) := by
      rw [hsent, hwritten₃] at hwritten
      simpa [World.afterHandshake, World.afterExchange] using hwritten.symm
    have hkinds : deleteFileCommand fileId ∉
        [ecdhPubkeyCommand (E.publicKeyBytes secret), fileListRequest 0,
          fileHeaderRequest file.fileId 0] := by
      rw [List.mem_cons, List.mem_cons, List.mem_singleton]
      rintro (h | h | h) <;> exact absurd (buildCommand_kind h) (by decide)
    have hlast := (List.mem_append.mp (hcommands ▸ hdelete)).resolve_left hkinds
    obtain ⟨rfl, hsent⟩ := mem_sent_deleteFile hlast
    refine ⟨by rw [hcommands, hsent]; rfl, _, _, file, files, hhandshake, hlist,
      rfl, ?_⟩
    rw [hdisk]
    exact hdisk₃

/-- **What is behind a deletion**: where the example of the README writes one,
in whatever way it ends, it is the first file of the list of the first device
that it deletes, as its fourth and last command, and behind a download that the
device has answered as complete already, or in which it has ended the transfer;
then the container of the slices received by then is in the file and stays
there. -/
theorem readmeExample_deletes {env : ProgramEnv} {secret : E.Secret}
    {w w' : World} {commands : List (List UInt8)} {fileId : UInt32}
    (hend : finalState ((readmeExample (recorder C E profile) env profile
      secret).run w) = w')
    (hwritten : w'.written = w.written ++ commands)
    (hdelete : deleteFileCommand fileId ∈ commands) :
    commands = [ecdhPubkeyCommand (E.publicKeyBytes secret), fileListRequest 0,
        fileHeaderRequest fileId 0, deleteFileCommand fileId] ∧
      ∃ device w₁ w₂ file files,
        env.bluetooth.Reaches device ∧
        (handshake C E env.handshake secret).run w.opened = .ok () w₁ ∧
        (listFiles profile env.listFiles).run w₁ = .ok (file :: files) w₂ ∧
        file.fileId = fileId ∧
        ((AlreadyComplete (env.downloadFile 0) w₂ ∧ w'.disk = w.disk) ∨
          ∃ bytes, Received C profile (env.downloadFile 0) fileId w₂ bytes ∧
            w'.disk = w.disk.put (opusPath [".", "output"] fileId) bytes) := by
  have hconnect : (recorder C E profile).connect = connectThen World.opened :=
    rfl
  by_cases hreaches : ∃ device, env.bluetooth.Reaches device
  · obtain ⟨device, hreaches⟩ := hreaches
    rw [readmeExample_run hconnect profile secret hreaches] at hend
    obtain ⟨hcommands, w₁, w₂, file, files, hdeleted⟩ :=
      readmeConnected_deletes C profile hend hwritten hdelete
    exact ⟨hcommands, device, w₁, w₂, file, files, hreaches, hdeleted⟩
  · -- Without a connection nothing is written.
    obtain ⟨e, hfails⟩ := readmeExample_unconnected hconnect profile secret
      (not_exists.mp hreaches) w
    rw [hfails] at hend
    obtain rfl : w = w' := hend
    rw [List.self_eq_append_right.mp hwritten] at hdelete
    cases hdelete

/-- The recording of `programWorld` is saved and deleted. -/
theorem readmeExample_deletes_once :
    let w' := finalState ((readmeExample (recorder sampleCiphers sampleEcdh
      .release) .fine .release ()).run programWorld)
    deleteFileCommand 1 ∈ w'.written ∧
      ∃ w₂, (AlreadyComplete .fine w₂ ∧ w'.disk = programWorld.disk) ∨
        ∃ bytes, Received sampleCiphers .release .fine 1 w₂ bytes ∧
          w'.disk = programWorld.disk.put (opusPath [".", "output"] 1) bytes := by
  obtain ⟨w₁, w₂, w₃, file, hhandshake, hlist, hid, hdownload⟩ :=
    programWorld_run (readmeProgress .release) (fun _ => rfl) [".", "output"]
  rw [← hid] at hdownload
  have hbehind := readmeConnected_behind sampleCiphers .release
    (show ((recorder sampleCiphers sampleEcdh .release).handshake
      ProgramEnv.fine.handshake ()).run programWorld = _ from hhandshake)
    hlist hdownload
  have hconnect : (recorder sampleCiphers sampleEcdh .release).connect =
      connectThen World.opened := rfl
  have hstart : (readmeExample (recorder sampleCiphers sampleEcdh .release)
      .fine .release ()).run programWorld = (readmeConnected (recorder
        sampleCiphers sampleEcdh .release) .fine .release ()).run
          programWorld :=
    readmeExample_run hconnect .release () recorderDevice_reached programWorld
  have hdelete : deleteFileCommand 1 ∈ (finalState ((readmeExample (recorder
      sampleCiphers sampleEcdh .release) .fine .release ()).run
        programWorld)).written := by
    rw [hstart, hbehind.1, hid]
    exact List.mem_append_right _ List.mem_cons_self
  obtain ⟨-, _, _, w, _, _, -, -, -, -, hdisk⟩ := readmeExample_deletes
    sampleCiphers .release (w := programWorld) rfl (List.nil_append _).symm
    hdelete
  exact ⟨hdelete, w, hdisk⟩

/-! ## The program that downloads everything -/

section Downloads

variable {files : List FileInfo} {outputDir : Path}
  {progress : Callback} {envs : ℕ → Env}
  {worlds : ℕ → World}

/-- What a download that returns does to one path. -/
theorem recorder_download_path {env : Env} {fileId : UInt32} {w w' : World}
    (h : ((recorder C E profile).downloadFile progress env fileId
      outputDir).run w = .ok (opusPath outputDir fileId) w') (path : Path) :
    ((path = opusPath outputDir fileId → AlreadyComplete env w) ∧
        w'.disk path = w.disk path) ∨
      ∃ bytes, path = opusPath outputDir fileId ∧
        Received C profile env fileId w bytes ∧ w'.disk path = some bytes := by
  obtain ⟨-, -, ⟨hcomplete, hdisk⟩ | ⟨bytes, hreceived, hdisk⟩⟩ :=
    recorder_download_ok C profile h
  · exact Or.inl ⟨fun _ => hcomplete, by rw [hdisk]⟩
  · by_cases hpath : path = opusPath outputDir fileId
    · refine Or.inr ⟨bytes, hpath, hreceived, ?_⟩
      rw [hdisk, hpath]
      exact Function.update_self _ _ _
    · refine Or.inl ⟨fun h => absurd h hpath, ?_⟩
      rw [hdisk]
      exact Function.update_of_ne hpath _ _

variable (E) in
/-- The downloads of a list that all return, from world to world. -/
def Downloads (progress : Callback) (envs : ℕ → Env)
    (outputDir : Path) (files : List FileInfo) (worlds : ℕ → World) : Prop :=
  ∀ i file, files[i]? = some file →
    ((recorder C E profile).downloadFile progress (envs i) file.fileId
      outputDir).run (worlds i) =
        .ok (opusPath outputDir file.fileId) (worlds (i + 1))

/-- They write their commands, and these only. -/
theorem Downloads.written
    (h : Downloads C E profile progress envs outputDir files worlds) :
    ∀ n ≤ files.length, (worlds n).written = (worlds 0).written ++
      (files.take n).map fun file => fileHeaderRequest file.fileId 0 := by
  intro n hn
  induction n with
  | zero => exact (List.append_nil _).symm
  | succ n ih =>
      have hfile : files[n]? = some files[n] := List.getElem?_eq_getElem hn
      obtain ⟨-, hwritten, -⟩ := recorder_download_ok C profile (h n _ hfile)
      rw [hwritten, ih (Nat.le_of_succ_le hn), List.take_add_one, hfile,
        Option.toList_some, List.map_append, List.append_assoc]
      rfl

/-- **One file after `n` downloads**: it is what it was before, and each
download to it has been answered as complete already, or it is what the last one
that was not has received. -/
theorem Downloads.file
    (h : Downloads C E profile progress envs outputDir files worlds)
    (path : Path) (n : ℕ) (hn : n ≤ files.length) :
    ((∀ i < n, ∀ file, files[i]? = some file →
          path = opusPath outputDir file.fileId →
          AlreadyComplete (envs i) (worlds i)) ∧
        (worlds n).disk path = (worlds 0).disk path) ∨
      ∃ j < n, ∃ file bytes, files[j]? = some file ∧
        path = opusPath outputDir file.fileId ∧
        Received C profile (envs j) file.fileId (worlds j) bytes ∧
        (worlds n).disk path = some bytes ∧
        ∀ k < n, j < k → ∀ later, files[k]? = some later →
          path = opusPath outputDir later.fileId →
          AlreadyComplete (envs k) (worlds k) := by
  induction n with
  | zero => exact Or.inl ⟨fun i hi => absurd hi (Nat.not_lt_zero i), rfl⟩
  | succ n ih =>
      have hfile : files[n]? = some files[n] := List.getElem?_eq_getElem hn
      have hlast := recorder_download_path C profile (h n _ hfile) path
      rcases hlast with ⟨hcomplete, hsame⟩ | ⟨bytes, hpath, hreceived, hdisk⟩
      · -- The last download counts among those answered as complete.
        have hthis : ∀ file, files[n]? = some file →
            path = opusPath outputDir file.fileId →
            AlreadyComplete (envs n) (worlds n) := by
          intro file hnth hpath
          rw [hfile] at hnth
          cases hnth
          exact hcomplete hpath
        rcases ih (Nat.le_of_succ_le hn) with ⟨hall, hkept⟩ |
          ⟨j, hj, file, bytes, hjth, hpath, hreceived, hdisk, hlater⟩
        · refine Or.inl ⟨fun i hi => ?_, hsame.trans hkept⟩
          rcases Nat.lt_succ_iff_lt_or_eq.mp hi with hi | rfl
          · exact hall i hi
          · exact hthis
        · refine Or.inr ⟨j, Nat.lt_succ_of_lt hj, file, bytes, hjth, hpath,
            hreceived, hsame.trans hdisk, fun k hk => ?_⟩
          rcases Nat.lt_succ_iff_lt_or_eq.mp hk with hk | rfl
          · exact hlater k hk
          · exact fun _ => hthis
      · refine Or.inr ⟨n, Nat.lt_succ_self n, _, bytes, hfile, hpath, hreceived,
          hdisk, fun k hk hnk => ?_⟩
        exact absurd hk (Nat.not_lt.mpr hnk)

/-- The program that returns has gone through the downloads of its list. -/
theorem downloadAllConnected_ok {env : ProgramEnv} {secret : E.Secret} {w w' : World}
    (h : (downloadAllConnected (recorder C E profile) env profile secret).run w =
      .ok () w') :
    ∃ w₁ files worlds,
      (handshake C E env.handshake secret).run w = .ok () w₁ ∧
      (listFiles profile env.listFiles).run w₁ = .ok files (worlds 0) ∧
      Downloads C E profile (downloadAllProgress profile) env.downloadFile
        [".", "recordings"] files worlds ∧
      w' = worlds files.length := by
  obtain ⟨_, w₁, hhandshake, h⟩ := run_bind_ok_iff.mp h
  obtain ⟨files, w₂, hlist, h⟩ := run_bind_ok_iff.mp h
  by_cases hempty : files.isEmpty = true
  · rw [if_pos hempty, bleCall_ok_iff] at h
    obtain ⟨-, rfl⟩ := h
    rw [List.isEmpty_iff] at hempty
    subst hempty
    exact ⟨w₁, [], fun _ => w', hhandshake, hlist, fun i file hi => by simp at hi,
      rfl⟩
  · rw [if_neg hempty] at h
    simp only [downloadEach, run_bind_ok_iff, ioCall_ok_iff, bleCall_ok_iff] at h
    obtain ⟨_, _, ⟨-, rfl⟩, _, w₃, hloop, -, rfl⟩ := h
    obtain ⟨worlds, rfl, hend, hrounds⟩ := forM_ok_states hloop
    rw [List.length_zipIdx] at hend
    refine ⟨w₁, files, worlds, hhandshake, hlist, fun i file hi => ?_, hend.symm⟩
    have hround := hrounds i (file, i) (by simp [hi])
    obtain ⟨path, w₄, hdownload, hnext⟩ := run_bind_ok_iff.mp hround
    cases hnext
    obtain ⟨rfl, -⟩ := recorder_download_ok C profile hdownload
    exact hdownload

end Downloads

/-- **What `download_all.rs` has done when it returns**: nothing, where a scan
finds no device. Otherwise it has asked the first device for each listed file
once, in the order of the list, and every file of the disk is what it was
before, each download to it having been answered as complete already, or the
container of the slices that the last other download to it has received by the
time the device ended the transfer. -/
theorem downloadAll_saved {env : ProgramEnv} {secret : E.Secret} {w w' : World}
    (h : (downloadAll (recorder C E profile) env profile secret).run w =
      .ok () w') :
    (scanDevices env.bluetooth = .ok [] ∧ w' = w) ∨
    ∃ device w₁ files worlds, env.bluetooth.Reaches device ∧
      (handshake C E env.handshake secret).run w.opened = .ok () w₁ ∧
      (listFiles profile env.listFiles).run w₁ = .ok files (worlds 0) ∧
      Downloads C E profile (downloadAllProgress profile) env.downloadFile
        [".", "recordings"] files worlds ∧
      w' = worlds files.length ∧
      w'.written = w.written ++ [ecdhPubkeyCommand (E.publicKeyBytes secret),
        fileListRequest 0] ++
          files.map (fun file => fileHeaderRequest file.fileId 0) ∧
      ∀ path,
        ((∀ i file, files[i]? = some file →
              path = opusPath [".", "recordings"] file.fileId →
              AlreadyComplete (env.downloadFile i) (worlds i)) ∧
            w'.disk path = w.disk path) ∨
          ∃ j file bytes, files[j]? = some file ∧
            path = opusPath [".", "recordings"] file.fileId ∧
            Received C profile (env.downloadFile j) file.fileId (worlds j)
              bytes ∧
            w'.disk path = some bytes ∧
            ∀ k, j < k → ∀ later, files[k]? = some later →
              path = opusPath [".", "recordings"] later.fileId →
              AlreadyComplete (env.downloadFile k) (worlds k) := by
  have hconnect : (recorder C E profile).connect = connectThen World.opened :=
    rfl
  rcases (downloadAll_returns_iff hconnect profile secret).mp h with hnone |
    ⟨⟨device, hreaches⟩, h⟩
  · exact Or.inl hnone
  obtain ⟨w₁, files, worlds, hhandshake, hlist, hdownloads, rfl⟩ :=
    downloadAllConnected_ok C profile h
  have hwritten := hdownloads.written C profile files.length (Nat.le_refl _)
  have hfile := fun path =>
    hdownloads.file C profile path files.length (Nat.le_refl _)
  obtain ⟨resp, rest, devicePublic, -, hw₁⟩ := handshake_ok C E hhandshake
  obtain ⟨-, listing, rest', -, -, -, hw₂⟩ := listFiles_ok profile hlist
  -- A download of the list has an index below its length.
  have hbound : ∀ {i file}, files[i]? = some file → i < files.length :=
    fun hi => (List.getElem?_eq_some_iff.mp hi).1
  refine Or.inr ⟨device, w₁, files, worlds, hreaches, hhandshake, hlist,
    hdownloads, rfl, ?_, fun path => ?_⟩
  · rw [hwritten, List.take_length, hw₂, hw₁]
    simp [World.afterHandshake, World.afterExchange, World.opened]
  · have hdisk : (worlds 0).disk path = w.disk path := by
      rw [hw₂, hw₁]
      rfl
    rcases hfile path with ⟨hall, hkept⟩ |
      ⟨j, -, file, bytes, hjth, hpath, hreceived, hput, hlater⟩
    · exact Or.inl ⟨fun i file hi => hall i (hbound hi) file hi,
        hkept.trans hdisk⟩
    · exact Or.inr ⟨j, file, bytes, hjth, hpath, hreceived, hput,
        fun k hk later hkth => hlater k (hbound hkth) hk later hkth⟩

/-- The recording of `programWorld` is saved. -/
theorem downloadAll_saved_once : ∃ w' files worlds,
    (downloadAll (recorder sampleCiphers sampleEcdh .release) .fine .release
      ()).run programWorld = .ok () w' ∧
    Downloads sampleCiphers sampleEcdh .release (downloadAllProgress .release)
      (fun _ => .fine) [".", "recordings"] files worlds ∧
    w'.written = programWorld.written ++
      [ecdhPubkeyCommand generatorPoint, fileListRequest 0] ++
        files.map fun file => fileHeaderRequest file.fileId 0 := by
  obtain ⟨w₁, w₂, w₃, file, hhandshake, hlist, hid, hdownload⟩ :=
    programWorld_run (downloadAllProgress .release)
      (fun p => by
        rw [downloadAllProgress, downloadAllPct]
        split <;> rfl) [".", "recordings"]
  rw [← hid] at hdownload
  have hconnect : (recorder sampleCiphers sampleEcdh .release).connect =
      connectThen World.opened := rfl
  have hrun : (downloadAll (recorder sampleCiphers sampleEcdh .release) .fine
      .release ()).run programWorld = .ok () w₃ := by
    refine (downloadAll_returns_iff hconnect .release ()).mpr
      (Or.inr ⟨⟨_, recorderDevice_reached⟩, ?_⟩)
    exact run_bind_ok_iff.mpr ⟨(), w₁, hhandshake,
      run_bind_ok_iff.mpr ⟨[file], w₂, hlist, run_bind_ok_iff.mpr ⟨(), w₂, rfl,
        run_bind_ok_iff.mpr ⟨(), w₃, run_bind_ok_iff.mpr ⟨(), w₃,
          run_bind_ok_iff.mpr ⟨_, w₃, hdownload, rfl⟩, rfl⟩, rfl⟩⟩⟩⟩
  have hfound : scanDevices ProgramEnv.fine.bluetooth ≠ .ok [] := nofun
  obtain ⟨_, _, files, worlds, -, -, -, hdownloads, -, hwritten, -⟩ :=
    (downloadAll_saved sampleCiphers .release hrun).resolve_left
      fun hnone => hfound hnone.1
  exact ⟨w₃, files, worlds, hrun, hdownloads, hwritten⟩

end MicRs
