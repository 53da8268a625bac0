import MicRs.Session.Operations
import MicRs.Transfer.Saved

/-!
# Answers and leftovers

All operations of a session share one channel, and an answer that comes after
its operation gave up stays there for the next. `download_file` accepts the
first 1A07 message it meets, for whatever file
(`session_downloads_requested_iff` says when that is the requested one), and
`delete_file` takes the first notification it meets, of whatever kind
(`session_deletions_confirmed_iff`).
-/

namespace MicRs

variable (C : Ciphers) (E : Ecdh) (profile : Profile)

/-! ## Downloads -/

/-- What a download saves is recording `hdr`: the slices that followed the
header, decrypted with its key and its nonce. -/
def SavesRecording (before : World) (fileId : UInt32) (path : Path)
    (hdr : FileHeader) (w' : World) : Prop :=
  ∃ data rest key fileKey bytes,
    firstHeader before.rx = some (data, rest) ∧ hdr = .read data ∧
    before.sessionKey = some key ∧
    decryptFileKey C key hdr.encryptedKey hdr.sessionNonce = .ok fileKey ∧
    wrapOggOpus profile (receivedFrames C hdr fileKey rest) fileId =
      .ok bytes ∧
    w'.disk path = some bytes

/-- A download that returns after accepting a header with code 0 saves the
recording of this header, and the header is that of the file asked for. -/
def Step.DownloadsRequested {Secret : Type} (step : Step Secret) : Prop :=
  ∀ fileId outputDir answer w' hdr,
    step.call.op = .downloadFile fileId outputDir →
    step.result = .ok answer w' →
    acceptedHeader step.call.env fileId step.before = some hdr → hdr.code = 0 →
    hdr.fileId = fileId ∧ ∃ path, answer = .path path ∧
      SavesRecording C profile step.before fileId path hdr w'

/-- What a download needs to save a recording: a header with code 0 and a good
key arrives, the slices behind it are in range and end with a 1A0A, and the file
can be written. -/
structure Completes (env : Env) (key : Vector UInt8 32) (w : World)
    (data : List UInt8) (rest : List Delivery) : Prop where
  begins : ∃ fileKey, Begins C env key w data rest fileKey
  complete : sliceClosing rest = some .complete
  fits : profile = .release ∨ InRange (deliveredSlices rest)
  create : env.create = none
  writeAll : env.writeAll = none
  flush : env.flush = none

/-- Where a download has all that it needs, the header that arrives first is that
of the file asked for. -/
def Step.AwaitsRequested {Secret : Type} (step : Step Secret) : Prop :=
  ∀ fileId outputDir key data rest,
    step.call.op = .downloadFile fileId outputDir →
    step.before.sessionKey = some key →
    Completes C profile step.call.env key step.before data rest →
    (FileHeader.read data).fileId = fileId

/-- A download that has all it needs accepts the header and returns. -/
theorem Completes.returns {env : Env} {key : Vector UInt8 32} {w : World}
    {data : List UInt8} {rest : List Delivery}
    (h : Completes C profile env key w data rest) (fileId : UInt32)
    (outputDir : Path) :
    acceptedHeader env fileId w = some (.read data) ∧
      (FileHeader.read data).code = 0 ∧
      ∃ path w', (downloadFile C profile env fileId key outputDir).run w =
        .ok path w' := by
  obtain ⟨fileKey, hbegins⟩ := h.begins
  obtain ⟨bytes, hwrap⟩ := wrapOggOpus_received C fileId h.fits
  obtain ⟨rest', hrun⟩ := downloadFile_saves C outputDir hbegins
    ⟨h.fits.imp_right (allFit_delivered_iff C rest).mpr, h.complete, hwrap⟩
    h.create h.writeAll h.flush
  exact ⟨acceptedHeader_of_arrives hbegins.toHeaderArrives, hbegins.code, _, _,
    hrun⟩

/-- A download that returns with code 0 had all it needs, and has saved the
recording of the header it accepted. -/
theorem downloadFile_savesRecording {env : Env} {fileId : UInt32}
    {key : Vector UInt8 32} {outputDir path : Path} {w w' : World}
    {hdr : FileHeader} (hkey : w.sessionKey = some key)
    (haccepted : acceptedHeader env fileId w = some hdr) (hcode : hdr.code = 0)
    (h : (downloadFile C profile env fileId key outputDir).run w =
      .ok path w') :
    (∃ data rest, hdr = .read data ∧ Completes C profile env key w data rest) ∧
      SavesRecording C profile w fileId path hdr w' := by
  obtain ⟨rfl, ⟨data, rest, harrives, h3, rfl⟩ |
    ⟨data, rest, fileKey, bytes, rest', hbegins, hsaves, hw'⟩⟩ :=
    downloadFile_ok C h
  · rw [acceptedHeader_of_arrives harrives] at haccepted
    cases haccepted
    rw [show (FileHeader.read data).code = byteAt data 95 from rfl, h3] at hcode
    cases hcode
  · obtain ⟨hcreate, hwriteAll, hflush⟩ := downloadFile_ok_calls C hbegins h
    rw [acceptedHeader_of_arrives hbegins.toHeaderArrives] at haccepted
    cases haccepted
    have hcompletes : Completes C profile env key w data rest :=
      ⟨⟨fileKey, hbegins⟩, hsaves.complete,
        hsaves.fits.imp_right (allFit_delivered_iff C rest).mp, hcreate,
        hwriteAll, hflush⟩
    refine ⟨⟨data, rest, rfl, hcompletes⟩, data, rest, key, fileKey, bytes,
      hbegins.first, rfl, hkey, hbegins.key, hsaves.wrapped, ?_⟩
    rw [hw']
    exact w.afterDownload_file C _ _ _ _ _ _ _

variable {E} in
/-- One step: a download saves what was asked for exactly when that is what
arrives. -/
theorem Step.downloadsRequested_iff {step : Step E.Secret}
    (hresult : step.result = (step.call.exec C E profile).run step.before) :
    step.DownloadsRequested C profile ↔ step.AwaitsRequested C profile := by
  obtain ⟨before, ⟨op, env⟩, result⟩ := step
  change result = (Call.exec C E profile ⟨op, env⟩).run before at hresult
  constructor
  · intro hrequested fileId outputDir key data rest hop hkey hcompletes
    change op = .downloadFile fileId outputDir at hop
    subst hop
    obtain ⟨haccepted, hcode, path, w', hrun⟩ :=
      hcompletes.returns C profile fileId outputDir
    have hok : result = .ok (.path path) w' := by
      rw [hresult, exec_downloadFile C E profile hkey, hrun]
    exact (hrequested fileId outputDir _ w' _ rfl hok haccepted hcode).1
  · intro hawaits fileId outputDir answer w' hdr hop hok haccepted hcode
    change op = .downloadFile fileId outputDir at hop
    subst hop
    obtain ⟨key, path, hkey, rfl, hrun⟩ :=
      exec_downloadFile_ok C E profile (hresult.symm.trans hok)
    obtain ⟨⟨data, rest, rfl, hcompletes⟩, hsaved⟩ :=
      downloadFile_savesRecording C profile hkey haccepted hcode hrun
    exact ⟨hawaits fileId outputDir key data rest rfl hkey hcompletes, path, rfl,
      hsaved⟩

/-! A header that arrives after its download gave up, and the next download. -/

/-- What arrives once a download of file 1 has given up. -/
def lateTransfer : List Delivery :=
  .notification (zeroHeader C 1 0) :: sliceTransfer [[zeroSlice C 0 1]]

def lateWorld : World := .connected (.silence :: lateTransfer C)

def lateWorldWithKey : World := { lateWorld C with sessionKey := some zeroKey }

/-- The world once the download of file 1 has given up. -/
def lateWorldAfter : World :=
  { lateWorldWithKey C with
    rx := lateTransfer C, written := [fileHeaderRequest 1 0] }

/-- A download of file 1 that gives up, and then one of file `fileId`. -/
def lateCalls (fileId : UInt32) : List (Call E.Secret) :=
  [⟨.setSessionKey zeroKey, .fine⟩, ⟨.downloadFile 1 [], .fine⟩,
    ⟨.downloadFile fileId [], .fine⟩]

theorem lateWorldAfter_begins :
    Begins C .fine zeroKey (lateWorldAfter C) (zeroHeader C 1 0)
      (sliceTransfer [[zeroSlice C 0 1]]) zeroKey :=
  (isHonestHeader_zeroHeader C 1).begins rfl rfl

/-- The second download takes the header of the first, for whatever file. -/
theorem session_late (fileId : UInt32) : ∃ w',
    session C E .release (lateWorld C) (lateCalls E fileId) =
      [⟨lateWorld C, ⟨.setSessionKey zeroKey, .fine⟩,
        .ok .unit (lateWorldWithKey C)⟩,
      ⟨lateWorldWithKey C, ⟨.downloadFile 1 [], .fine⟩,
        .error (.error .timeout) (lateWorldAfter C)⟩,
      ⟨lateWorldAfter C, ⟨.downloadFile fileId [], .fine⟩,
        .ok (.path (opusPath [] fileId)) w'⟩] := by
  have hset : (Call.exec C E .release ⟨.setSessionKey zeroKey, .fine⟩).run
      (lateWorld C) = .ok .unit (lateWorldWithKey C) := rfl
  have hlate : (Call.exec C E .release ⟨.downloadFile 1 [], .fine⟩).run
      (lateWorldWithKey C) =
        .error (.error .timeout) (lateWorldAfter C) := by
    rw [exec_downloadFile C E .release rfl,
      downloadFile_silence C .release rfl rfl]
    rfl
  obtain ⟨bytes, w', -, hrun, -⟩ := downloadFile_delivers C
    .release fileId [] (lateWorldAfter_begins C) (sliceTransfer_delivers _).2
    (Or.inl rfl)
  have hretry : (Call.exec C E .release ⟨.downloadFile fileId [], .fine⟩).run
      (lateWorldAfter C) = .ok (.path (opusPath [] fileId)) w' := by
    rw [exec_downloadFile C E .release rfl, hrun]
  refine ⟨w', ?_⟩
  rw [lateCalls, session_cons_ok C E .release _ hset,
    session_cons_error C E .release _ hlate,
    session_cons_ok C E .release _ hretry]
  rfl

/-- **When the downloads of a session fetch the files asked for**: exactly when
none of them gets all that it needs behind the header of another file. -/
theorem session_downloads_requested_iff (w : World)
    (calls : List (Call E.Secret)) :
    (∀ step ∈ session C E profile w calls,
        step.DownloadsRequested C profile) ↔
      ∀ step ∈ session C E profile w calls, step.AwaitsRequested C profile := by
  have hstep : ∀ step ∈ session C E profile w calls,
      step.DownloadsRequested C profile ↔ step.AwaitsRequested C profile :=
    fun step hstep =>
      step.downloadsRequested_iff C profile (session_result C E profile hstep)
  exact forall₂_congr hstep

/-- In every session the downloads fetch the files asked for. -/
def AlwaysRequested : Prop :=
  ∀ (profile : Profile) (w : World) (calls : List (Call E.Secret)),
  ∀ step ∈ session C E profile w calls, step.DownloadsRequested C profile

/-- **A late header is taken for that of another file**, whatever the primitives
are. -/
theorem session_wrong_file :
    ¬ ∃ (C : Ciphers) (E : Ecdh), AlwaysRequested C E := by
  rintro ⟨C, E, hclaim⟩
  obtain ⟨w', hsession⟩ := session_late C E 2
  obtain ⟨hone, -, hcode, -⟩ := (isHonestHeader_zeroHeader C 1).read
  have hsteps := hclaim .release (lateWorld C) (lateCalls E 2)
  rw [hsession] at hsteps
  simp only [List.forall_mem_cons] at hsteps
  have haccepted : acceptedHeader .fine 2 (lateWorldAfter C) =
      some (.read (zeroHeader C 1 0)) :=
    acceptedHeader_of_arrives (lateWorldAfter_begins C).toHeaderArrives
  have hid : (FileHeader.read (zeroHeader C 1 0)).fileId = 2 :=
    (hsteps.2.2.1 2 [] _ w' _ rfl rfl haccepted hcode).1
  exact absurd (hone.symm.trans hid) (by decide)

/-! ## Deletions -/

/-- A deletion that reports success took a 1A10 notification with success
nibble 1. -/
def Step.DeletionConfirmed {Secret : Type} (step : Step Secret) : Prop :=
  ∀ fileId answer w', step.call.op = .deleteFile fileId →
    step.result = .ok answer w' →
    ∃ value, w'.received = step.before.received ++ [value] ∧
      IsResponse cmdTypeFile cmdDeleteFile value ∧ successNibble value = 1

/-- The notification a deletion takes, if it has seven bytes and success nibble
1, is a 1A10 one. -/
def Step.AwaitsConfirmation {Secret : Type} (step : Step Secret) : Prop :=
  ∀ fileId value rest, step.call.op = .deleteFile fileId →
    step.call.env.write = none →
    step.before.rx = .notification value :: rest →
    7 ≤ value.length → successNibble value = 1 →
    byteAt value 5 = cmdTypeFile ∧ byteAt value 6 = cmdDeleteFile

variable {E} in
/-- One step: a success is confirmed exactly when what is taken is. -/
theorem Step.deletionConfirmed_iff {step : Step E.Secret}
    (hresult : step.result = (step.call.exec C E profile).run step.before) :
    step.DeletionConfirmed ↔ step.AwaitsConfirmation := by
  obtain ⟨before, ⟨op, env⟩, result⟩ := step
  constructor
  · intro hconfirmed fileId value rest hop hwrite hrx hlen hflag
    change op = .deleteFile fileId at hop
    subst hop
    have hrun := deleteFile_of_success fileId hwrite hrx hlen hflag
    have hok : result = .ok .unit
        (before.afterExchange (deleteFileCommand fileId) value rest) := by
      rw [show result = _ from hresult, exec_deleteFile C E profile, hrun]
    obtain ⟨value', hreceived, hkind, -⟩ := hconfirmed fileId _ _ rfl hok
    have hvalue : value = value' := by
      simpa [World.afterExchange] using hreceived
    rw [hvalue]
    exact hkind.2
  · intro hawaits fileId answer w' hop hok
    change op = .deleteFile fileId at hop
    subst hop
    rw [show result = _ from hresult, exec_deleteFile C E profile] at hok
    rcases hrun : (deleteFile env fileId).run before with ⟨⟨⟩, w₁⟩ | ⟨e, w₁⟩
    · rw [hrun] at hok
      cases hok
      obtain ⟨hwrite, value, rest, hrx, hlen, hflag, rfl⟩ := deleteFile_ok hrun
      exact ⟨value, rfl, ⟨hlen, hawaits fileId value rest rfl hwrite hrx hlen
        hflag⟩, hflag⟩
    · rw [hrun] at hok
      cases hok

/-- **When the deletions of a session are confirmed**: exactly when none of
them takes a successful notification of another kind. -/
theorem session_deletions_confirmed_iff (w : World)
    (calls : List (Call E.Secret)) :
    (∀ step ∈ session C E profile w calls, step.DeletionConfirmed) ↔
      ∀ step ∈ session C E profile w calls, step.AwaitsConfirmation := by
  have hstep : ∀ step ∈ session C E profile w calls,
      step.DeletionConfirmed ↔ step.AwaitsConfirmation := fun step hstep =>
    step.deletionConfirmed_iff C profile (session_result C E profile hstep)
  exact forall₂_congr hstep

/-- In every session the deletions that report success are confirmed. -/
def AlwaysConfirmed : Prop :=
  ∀ (profile : Profile) (w : World) (calls : List (Call E.Secret)),
  ∀ step ∈ session C E profile w calls, step.DeletionConfirmed

/-- The answer to a request for the file list, with no file in it. -/
def emptyListMessage : List UInt8 :=
  message 1 cmdTypeFile cmdGetAllFiles [0x00, 0x00]

/-- The connection over which that answer comes late. -/
def lateListWorld : World :=
  .connected [.silence, .notification emptyListMessage]

/-- The world once the request for the list has given up. -/
def lateListWorldAfter : World :=
  { lateListWorld with
    rx := [.notification emptyListMessage], written := [fileListRequest 0] }

/-- **A late file list confirms a deletion**, whatever the primitives are. -/
theorem session_unconfirmed_deletion :
    ¬ ∃ (C : Ciphers) (E : Ecdh), AlwaysConfirmed C E := by
  rintro ⟨C, E, hclaim⟩
  have hlist : (Call.exec C E .release ⟨.listFiles, .fine⟩).run lateListWorld =
      .error (.error .timeout) lateListWorldAfter := rfl
  have hdelete : (Call.exec C E .release ⟨.deleteFile 1, .fine⟩).run
      lateListWorldAfter = .ok .unit (lateListWorldAfter.afterExchange
        (deleteFileCommand 1) emptyListMessage []) := by
    rw [exec_deleteFile C E .release, deleteFile_of_success _ rfl rfl
      (by decide) (by decide)]
  have hsteps := hclaim .release lateListWorld
    [⟨.listFiles, .fine⟩, ⟨.deleteFile 1, .fine⟩]
  rw [session_cons_error C E .release _ hlist,
    session_cons_ok C E .release _ hdelete] at hsteps
  simp only [List.forall_mem_cons] at hsteps
  obtain ⟨value, hreceived, ⟨-, -, hid⟩, -⟩ := hsteps.2.1 1 _ _ rfl rfl
  have hvalue : [emptyListMessage] = [value] := hreceived
  cases hvalue
  exact absurd hid (by decide)

end MicRs
