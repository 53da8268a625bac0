import MicRs.Transfer.Frames
import MicRs.Transfer.SlicePhase

/-!
# What a download does

The two loops put together. `downloadFile_ok` lists everything that holds when
`download_file` returns `Ok`: the request went out, the first 1A07 message
parsed, and either its code was 3 and nothing was written, or its code was 0
and the file is the container of the frames delivered before the completion.
`downloadFile_saves` is the converse for code 0.
-/

namespace MicRs

open MessageLoop StateFrame

variable (C : Ciphers)

/-- The frames of a recording: what the slices delivered before the completion
decrypt to, in order of arrival. -/
def receivedFrames (fileHeader : FileHeader) (fileKey : Vector UInt8 32)
    (ds : List Delivery) : List (List UInt8) :=
  (deliveredSlices ds).map (frameOf C fileHeader fileKey)

theorem acceptAll_rawFrames (fileId : UInt32) (fileHeader : FileHeader)
    (fileKey : Vector UInt8 32) (slices : List AudioSlice)
    (s : Transfer × Log) :
    (acceptAll C fileId fileHeader fileKey s slices).1.rawFrames =
      s.1.rawFrames ++ slices.map (frameOf C fileHeader fileKey) := by
  induction slices generalizing s with
  | nil => simp [acceptAll]
  | cons slice slices ih =>
      have hrest := ih (acceptPure C fileId fileHeader fileKey s slice)
      simp only [acceptAll, List.foldl_cons] at hrest ⊢
      rw [hrest]
      simp [acceptPure, Transfer.accept]

/-! ## Saving -/

/-- The file is created, and writing or flushing it fails with `n` bytes of it
on disk. -/
structure WriteFails (env : Env) (n : ℕ) (message : String) : Prop where
  created : env.create = none
  failed : env.writeAll = some (n, message) ∨
    (env.writeAll = none ∧ env.flush = some (n, message))

/-- The world after a save that has put `content` into the file. -/
def World.saved (w : World) (fileId : UInt32) (outputDir : Path)
    (content : List UInt8) : World :=
  { w with disk := w.disk.put (opusPath outputDir fileId) content }

@[simp] theorem World.saved_received (w : World) (fileId : UInt32)
    (outputDir : Path) (content : List UInt8) :
    (w.saved fileId outputDir content).received = w.received := rfl

@[simp] theorem World.saved_written (w : World) (fileId : UInt32)
    (outputDir : Path) (content : List UInt8) :
    (w.saved fileId outputDir content).written = w.written := rfl

@[simp] theorem World.saved_file (w : World) (fileId : UInt32)
    (outputDir : Path) (content : List UInt8) :
    (w.saved fileId outputDir content).disk (opusPath outputDir fileId) =
      some content := by
  simp [World.saved, Disk.put]

section Save

variable {profile : Profile} {env : Env} {fileId : UInt32} {outputDir : Path}
  {frames : List (List UInt8)} {w w' : World} {bytes : List UInt8}

theorem saveFile_fine (hwrap : wrapOggOpus profile frames fileId = .ok bytes)
    (hcreate : env.create = none) (hwrite : env.writeAll = none)
    (hflush : env.flush = none) :
    (saveFile profile env fileId outputDir frames).run w =
      .ok (opusPath outputDir fileId) (w.saved fileId outputDir bytes) := by
  simp [saveFile, hwrap, createFile, writeAll, flush, hcreate, hwrite, hflush,
    Disk.put, World.saved]

theorem saveFile_write_fails {n : ℕ} {message : String}
    (hwrap : wrapOggOpus profile frames fileId = .ok bytes)
    (h : WriteFails env n message) :
    (saveFile profile env fileId outputDir frames).run w =
      .error (.error (.io message))
        (w.saved fileId outputDir (bytes.take n)) := by
  have hcreate := h.created
  rcases h.failed with hwrite | ⟨hwrite, hflush⟩
  · simp [saveFile, hwrap, createFile, writeAll, hcreate, hwrite, Disk.put,
      World.saved]
  · simp [saveFile, hwrap, createFile, writeAll, flush, hcreate, hwrite, hflush,
      Disk.put, World.saved]

variable (profile env fileId outputDir frames w) in
/-- **All that a save can do**: fail before anything is written, fail while the
file is written, or write all of it. -/
theorem saveFile_cases :
    (∃ p, wrapOggOpus profile frames fileId = .error p ∧
      (saveFile profile env fileId outputDir frames).run w =
        .error (.panic p) w) ∨
    ∃ bytes, wrapOggOpus profile frames fileId = .ok bytes ∧
      ((∃ e, (saveFile profile env fileId outputDir frames).run w =
          .error (.error (.io e)) w) ∨
        (∃ n message, WriteFails env n message ∧
          (saveFile profile env fileId outputDir frames).run w =
            .error (.error (.io message))
              (w.saved fileId outputDir (bytes.take n))) ∨
        (saveFile profile env fileId outputDir frames).run w =
          .ok (opusPath outputDir fileId) (w.saved fileId outputDir bytes)) := by
  rcases hwrap : wrapOggOpus profile frames fileId with p | bytes
  · exact Or.inl ⟨p, rfl, by simp [saveFile, hwrap]⟩
  · refine Or.inr ⟨bytes, rfl, ?_⟩
    rcases hcreate : env.create with _ | e
    · right
      rcases hwrite : env.writeAll with _ | ⟨n, e⟩
      · rcases hflush : env.flush with _ | ⟨n, e⟩
        · exact Or.inr (saveFile_fine hwrap hcreate hwrite hflush)
        · have hfails : WriteFails env n e := ⟨hcreate, Or.inr ⟨hwrite, hflush⟩⟩
          exact Or.inl ⟨n, e, hfails, saveFile_write_fails hwrap hfails⟩
      · have hfails : WriteFails env n e := ⟨hcreate, Or.inl hwrite⟩
        exact Or.inl ⟨n, e, hfails, saveFile_write_fails hwrap hfails⟩
    · exact Or.inl ⟨e, by simp [saveFile, hwrap, createFile, hcreate]⟩

theorem saveFile_ok {path : Path}
    (h : (saveFile profile env fileId outputDir frames).run w = .ok path w') :
    ∃ bytes, wrapOggOpus profile frames fileId = .ok bytes ∧
      path = opusPath outputDir fileId ∧
      w' = w.saved fileId outputDir bytes := by
  rcases saveFile_cases profile env fileId outputDir frames w with
    ⟨p, -, hrun⟩ | ⟨bytes, hwrap, ⟨e, hrun⟩ | ⟨n, message, -, hrun⟩ | hrun⟩ <;>
    rw [hrun] at h <;> cases h
  exact ⟨bytes, hwrap, rfl, rfl⟩

/-- A save that returns met no error of the file system. -/
theorem saveFile_ok_calls {path : Path}
    (h : (saveFile profile env fileId outputDir frames).run w = .ok path w') :
    env.create = none ∧ env.writeAll = none ∧ env.flush = none := by
  obtain ⟨bytes, hwrap, -⟩ := saveFile_ok h
  rcases hcreate : env.create with _ | e
  · rcases hwrite : env.writeAll with _ | ⟨n, e⟩
    · rcases hflush : env.flush with _ | ⟨n, e⟩
      · exact ⟨rfl, rfl, rfl⟩
      · rw [saveFile_write_fails hwrap ⟨hcreate, Or.inr ⟨hwrite, hflush⟩⟩] at h
        cases h
    · rw [saveFile_write_fails hwrap ⟨hcreate, Or.inl hwrite⟩] at h
      cases h
  · simp [saveFile, hwrap, createFile, hcreate] at h

/-- A save that fails has left the world alone, or the write has failed. -/
theorem saveFile_error {fault : Fault}
    (h : (saveFile profile env fileId outputDir frames).run w =
      .error fault w') :
    w' = w ∨ ∃ bytes n message, wrapOggOpus profile frames fileId = .ok bytes ∧
      WriteFails env n message := by
  rcases saveFile_cases profile env fileId outputDir frames w with
    ⟨p, -, hrun⟩ | ⟨bytes, hwrap, ⟨e, hrun⟩ | ⟨n, message, hfails, hrun⟩ | hrun⟩ <;>
    rw [hrun] at h <;> cases h
  · exact Or.inl rfl
  · exact Or.inl rfl
  · exact Or.inr ⟨bytes, n, message, hwrap, hfails⟩

/-- A save panics only where the wrapping does. -/
theorem saveFile_no_panic {p : Panic}
    (hwrap : wrapOggOpus profile frames fileId = .ok bytes) :
    (saveFile profile env fileId outputDir frames).run w ≠
      .error (.panic p) w' := by
  intro h
  rcases saveFile_cases profile env fileId outputDir frames w with
    ⟨p, hpanic, -⟩ | ⟨bytes, -, ⟨e, hrun⟩ | ⟨n, message, -, hrun⟩ | hrun⟩
  · rw [hwrap] at hpanic
    cases hpanic
  · rw [hrun] at h
    cases h
  · rw [hrun] at h
    cases h
  · rw [hrun] at h
    cases h

end Save

/-! ## The slice loop in the world -/

theorem receiveSlices_ok {profile : Profile} {fileId : UInt32}
    {fileHeader : FileHeader} {fileKey : Vector UInt8 32} {w w' : World}
    {transfer : Transfer}
    (h : (recvUntil (sliceBody C profile fileId fileHeader fileKey)
      .start).run w = .ok transfer w') :
    (profile = .release ∨
        AllFit C fileHeader fileKey .start (deliveredSlices w.rx)) ∧
      sliceClosing w.rx = some .complete ∧
      transfer.rawFrames = receivedFrames C fileHeader fileKey w.rx ∧
      ∃ rest, w' = w.after rest
        (acceptAll C fileId fileHeader fileKey (.start, w.log)
          (deliveredSlices w.rx)).2 := by
  rw [recvUntil_run] at h
  have hend := run_sliceBody C profile fileId fileHeader fileKey w.rx w.log
  have hfit : profile = .release ∨
      AllFit C fileHeader fileKey .start (deliveredSlices w.rx) := by
    rcases profile with _ | _
    -- A round that does not fit would have panicked.
    · refine Or.inr (Classical.byContradiction fun hno => ?_)
      obtain ⟨log', hpanic⟩ := run_sliceItem_panic C fileId fileHeader
        fileKey (deliveredSlices w.rx) .start w.log hno
      rw [hpanic] at hend
      simp [World.finish, hend] at h
    · exact Or.inl rfl
  rw [run_sliceItem C _ _ _ _ (deliveredSlices w.rx) .start w.log hfit] at hend
  refine ⟨hfit, ?_⟩
  rcases hclose : sliceClosing w.rx with _ | _ | _
  · simp [World.finish, hend, hclose] at h
  · simp only [World.finish, hend, hclose, sliceFinish,
      EStateM.Result.ok.injEq] at h
    obtain ⟨rfl, rfl⟩ := h
    refine ⟨rfl, ?_, _, rfl⟩
    rw [acceptAll_rawFrames]
    rfl
  · simp [World.finish, hend, hclose, sliceFinish] at h

theorem receiveSlices_complete {profile : Profile} (fileId : UInt32)
    {fileHeader : FileHeader} {fileKey : Vector UInt8 32} {w : World}
    (hfit : profile = .release ∨
      AllFit C fileHeader fileKey .start (deliveredSlices w.rx))
    (hclose : sliceClosing w.rx = some .complete) :
    ∃ transfer rest, transfer.rawFrames =
        receivedFrames C fileHeader fileKey w.rx ∧
      (recvUntil (sliceBody C profile fileId fileHeader fileKey)
        .start).run w =
        .ok transfer (w.after rest
          (acceptAll C fileId fileHeader fileKey (.start, w.log)
            (deliveredSlices w.rx)).2) := by
  have hend := run_sliceBody C profile fileId fileHeader fileKey w.rx w.log
  rw [run_sliceItem C _ _ _ _ (deliveredSlices w.rx) .start w.log hfit] at hend
  simp only [hclose, sliceFinish] at hend
  refine ⟨_, _, ?_, by rw [recvUntil_run, World.finish, hend]⟩
  rw [acceptAll_rawFrames]
  rfl

/-! ## Up to the header -/

theorem send_ok {env : Env} (data : List UInt8) (w : World)
    (h : env.write = none) :
    (send env data).run w = .ok () { w with written := w.written ++ [data] } := by
  simp [send, h]

/-- The world once the request of a download is written and its header has
arrived, with `rest` still to come. -/
def World.atHeader (w : World) (fileId : UInt32) (rest : List Delivery) :
    World :=
  ({ w with written := w.written ++ [fileHeaderRequest fileId 0] } :
    World).after rest w.log

@[simp] theorem World.atHeader_rx (w : World) (fileId : UInt32)
    (rest : List Delivery) : (w.atHeader fileId rest).rx = rest := rfl

@[simp] theorem World.atHeader_log (w : World) (fileId : UInt32)
    (rest : List Delivery) : (w.atHeader fileId rest).log = w.log := rfl

/-- The request goes out and `data`, the first 1A07 message, parses. -/
structure HeaderArrives (env : Env) (w : World) (data : List UInt8)
    (rest : List Delivery) : Prop where
  sent : env.write = none
  first : firstHeader w.rx = some (data, rest)
  parses : IsFileHeader data

/-- The header a download accepts: what its header wait returns. -/
def acceptedHeader (env : Env) (fileId : UInt32) (w : World) :
    Option FileHeader :=
  match (do
    send env (fileHeaderRequest fileId 0)
    recvUntil headerBody () : RecorderM FileHeader).run w with
  | .ok hdr _ => some hdr
  | .error _ _ => none

/-- The accepted header is the first 1A07 message, for whatever file. -/
theorem acceptedHeader_eq_some {env : Env} {fileId : UInt32} {w : World}
    {hdr : FileHeader} (h : acceptedHeader env fileId w = some hdr) :
    ∃ data rest, HeaderArrives env w data rest ∧ hdr = .read data := by
  rcases hwrite : env.write with _ | e
  · have hsend := send_ok (fileHeaderRequest fileId 0) w hwrite
    rw [acceptedHeader, EStateM.run_bind, hsend] at h
    rcases hwait : (recvUntil headerBody ()).run
        { w with written := w.written ++ [fileHeaderRequest fileId 0] } with
      ⟨hdr', w'⟩ | ⟨e, w'⟩
    · simp only [hwait, Option.some.injEq] at h
      obtain ⟨data, rest, hfirst, hparse, hread, -⟩ := receiveHeader_ok hwait
      exact ⟨data, rest, ⟨hwrite, hfirst, hparse⟩, h.symm.trans hread⟩
    · simp [hwait] at h
  · simp [acceptedHeader, send, hwrite] at h

theorem acceptedHeader_of_arrives {env : Env} {fileId : UInt32} {w : World}
    {data : List UInt8} {rest : List Delivery}
    (h : HeaderArrives env w data rest) :
    acceptedHeader env fileId w = some (.read data) := by
  have hwait := receiveHeader_of_firstHeader
    (w := { w with written := w.written ++ [fileHeaderRequest fileId 0] })
    h.first h.parses
  simp only [acceptedHeader, EStateM.run_bind, send_ok _ w h.sent, hwait]

theorem downloadFile_header {profile : Profile} {env : Env} {fileId : UInt32}
    {sessionKey : Vector UInt8 32} {outputDir : Path} {w : World}
    {data : List UInt8} {rest : List Delivery}
    (h : HeaderArrives env w data rest) :
    (downloadFile C profile env fileId sessionKey outputDir).run w =
      (acceptHeader C profile env fileId sessionKey outputDir
        (.read data)).run (w.atHeader fileId rest) := by
  have hsend := send_ok (fileHeaderRequest fileId 0) w h.sent
  have hhdr := receiveHeader_of_firstHeader
    (w := { w with written := w.written ++ [fileHeaderRequest fileId 0] })
    h.first h.parses
  simp only [downloadFileWith, EStateM.run_bind, hsend, hhdr]
  rfl

/-- The header wait logs nothing. -/
theorem receiveHeader_keeps_log : Keeps World.log (recvUntil headerBody ()) := by
  intro w
  rw [recvUntil_run]
  rcases hfirst : firstHeader w.rx with _ | ⟨data, rest⟩
  · rcases run_headerBody_none w.log hfirst with hend | hend <;>
      simp only [World.finish, hend] <;> rfl
  · rw [run_headerBody_some hfirst]
    rcases hverdict : headerVerdict data with e | hdr <;>
      simp only [World.finish] <;> rfl

/-- Without a header a download fails, in every build alike. -/
theorem downloadFile_no_header {env : Env} {fileId : UInt32}
    {sessionKey : Vector UInt8 32} {outputDir : Path} {w : World}
    (h : ¬ ∃ data rest, HeaderArrives env w data rest) :
    ∃ e w', w'.disk = w.disk ∧ w'.log = w.log ∧ ∀ profile,
      (downloadFile C profile env fileId sessionKey outputDir).run w =
        .error (.error e) w' := by
  rcases hwrite : env.write with _ | e
  · have hsend := send_ok (fileHeaderRequest fileId 0) w hwrite
    obtain ⟨e, w', hrun⟩ : ∃ e w', (recvUntil headerBody ()).run
        { w with written := w.written ++ [fileHeaderRequest fileId 0] } =
          .error (.error e) w' := by
      rcases hfirst : firstHeader w.rx with _ | ⟨data, rest⟩
      · exact receiveHeader_none hfirst
      · exact receiveHeader_of_malformed hfirst
          fun hparse => h ⟨data, rest, hwrite, hfirst, hparse⟩
    have hdisk := (recvUntil_keeps ignoresChannel_disk headerBody ()).error hrun
    have hlog := receiveHeader_keeps_log.error hrun
    exact ⟨e, w', hdisk, hlog, fun profile => by
      simp only [downloadFileWith, EStateM.run_bind, hsend, hrun]⟩
  · exact ⟨.ble e, w, rfl, rfl, fun profile => by
      simp [downloadFileWith, send, hwrite]⟩

/-- Code 3 returns the path at once. -/
theorem downloadFile_complete {env : Env} (fileId : UInt32)
    (sessionKey : Vector UInt8 32) (outputDir : Path) {w : World}
    {data : List UInt8} {rest : List Delivery}
    (h : HeaderArrives env w data rest) (h3 : byteAt data 95 = 3)
    (profile : Profile) :
    (downloadFile C profile env fileId sessionKey outputDir).run w =
      .ok (opusPath outputDir fileId) (w.atHeader fileId rest) := by
  rw [downloadFile_header C h]
  simp [acceptHeaderWith, FileHeaderCode.ofByte, FileHeader.read, h3]

/-- Any code but 0 and 3 is an error. -/
theorem acceptHeader_refuses (env : Env) (fileId : UInt32)
    (sessionKey : Vector UInt8 32) (outputDir : Path) {hdr : FileHeader}
    (h0 : hdr.code ≠ 0) (h3 : hdr.code ≠ 3) (w : World) :
    ∃ e, ∀ profile,
      (acceptHeader C profile env fileId sessionKey outputDir hdr).run w =
        .error (.error e) w := by
  by_cases h1 : hdr.code = 1
  · exact ⟨.fileNotExists fileId, fun profile => by
      simp [acceptHeaderWith, FileHeaderCode.ofByte, h1]⟩
  · by_cases h2 : hdr.code = 2
    · exact ⟨.fileTransferError ("file header code: " ++
        FileHeaderCode.debug .localFileError), fun profile => by
          simp [acceptHeaderWith, FileHeaderCode.ofByte, h2]⟩
    · exact ⟨.fileTransferError ("file header code: " ++
        FileHeaderCode.debug (.unknown hdr.code)), fun profile => by
          simp [acceptHeaderWith, FileHeaderCode.ofByte, h0, h1, h2, h3]⟩

/-! ## The whole download -/

/-- The slice loop of a download begins: a header arrives with code 0 and a
good key. -/
structure Begins (env : Env) (sessionKey : Vector UInt8 32) (w : World)
    (data : List UInt8) (rest : List Delivery) (fileKey : Vector UInt8 32) :
    Prop extends HeaderArrives env w data rest where
  code : byteAt data 95 = 0
  key : decryptFileKey C sessionKey (FileHeader.read data).encryptedKey
    (FileHeader.read data).sessionNonce = .ok fileKey

/-- With a good key, what follows the header is the slice loop and the saving
of the frames. -/
theorem transferFile_key {profile : Profile} {env : Env} {fileId : UInt32}
    {sessionKey fileKey : Vector UInt8 32} {outputDir : Path} {hdr : FileHeader}
    (hkey : decryptFileKey C sessionKey hdr.encryptedKey hdr.sessionNonce =
      .ok fileKey) (w : World) :
    (transferFile C profile env fileId sessionKey outputDir hdr).run w =
      (recvUntil (sliceBody C profile fileId hdr fileKey) .start >>=
        fun transfer => saveFile profile env fileId outputDir
          transfer.rawFrames).run w := by
  simp only [transferFileWith, hkey, EStateM.run_bind, run_lift_result_ok]

theorem downloadFile_begins {profile : Profile} {env : Env} {fileId : UInt32}
    {sessionKey fileKey : Vector UInt8 32} {outputDir : Path} {w : World}
    {data : List UInt8} {rest : List Delivery}
    (h : Begins C env sessionKey w data rest fileKey) :
    (downloadFile C profile env fileId sessionKey outputDir).run w =
      (recvUntil (sliceBody C profile fileId (.read data) fileKey) .start >>=
        fun transfer => saveFile profile env fileId outputDir
          transfer.rawFrames).run (w.atHeader fileId rest) := by
  have hcode : (FileHeader.read data).code = 0 := h.code
  rw [downloadFile_header C h.toHeaderArrives]
  simp only [acceptHeaderWith, FileHeaderCode.ofByte, hcode, if_true]
  exact transferFile_key C h.key _

/-- **A download that does not begin** returns the path for code 3 and fails
otherwise; it saves and logs nothing, in every build alike. -/
theorem downloadFile_idle {env : Env} (fileId : UInt32)
    {sessionKey : Vector UInt8 32} (outputDir : Path) {w : World}
    (h : ¬ ∃ data rest fileKey, Begins C env sessionKey w data rest fileKey) :
    (∃ data rest, HeaderArrives env w data rest ∧ byteAt data 95 = 3 ∧
      ∀ profile, (downloadFile C profile env fileId sessionKey outputDir).run w =
        .ok (opusPath outputDir fileId) (w.atHeader fileId rest)) ∨
    ∃ e w', w'.disk = w.disk ∧ w'.log = w.log ∧ ∀ profile,
      (downloadFile C profile env fileId sessionKey outputDir).run w =
        .error (.error e) w' := by
  by_cases hheader : ∃ data rest, HeaderArrives env w data rest
  · obtain ⟨data, rest, harrives⟩ := hheader
    by_cases h0 : byteAt data 95 = 0
    · rcases hkey : decryptFileKey C sessionKey
          (FileHeader.read data).encryptedKey
          (FileHeader.read data).sessionNonce with e | fileKey
      · refine Or.inr ⟨e, w.atHeader fileId rest, rfl, rfl, ?_⟩
        intro profile
        rw [downloadFile_header C harrives]
        have hcode : (FileHeader.read data).code = 0 := h0
        simp only [acceptHeaderWith, FileHeaderCode.ofByte, hcode, if_true,
          transferFileWith, hkey, EStateM.run_bind, run_lift_result_error]
      · exact absurd ⟨data, rest, fileKey, harrives, h0, hkey⟩ h
    · by_cases h3 : byteAt data 95 = 3
      · exact Or.inl ⟨data, rest, harrives, h3,
          downloadFile_complete C fileId sessionKey outputDir harrives h3⟩
      · obtain ⟨e, hrefuses⟩ := acceptHeader_refuses C env fileId sessionKey
          outputDir (show (FileHeader.read data).code ≠ 0 from h0) h3
          (w.atHeader fileId rest)
        exact Or.inr ⟨e, w.atHeader fileId rest, rfl, rfl, fun profile =>
          (downloadFile_header C harrives).trans (hrefuses profile)⟩
  · exact Or.inr (downloadFile_no_header C hheader)

/-- What makes a download with header `hdr` save `bytes`, when `rest` follows
the header. -/
structure Saves (profile : Profile) (fileId : UInt32) (hdr : FileHeader)
    (rest : List Delivery) (fileKey : Vector UInt8 32) (bytes : List UInt8) :
    Prop where
  fits : profile = .release ∨
    AllFit C hdr fileKey .start (deliveredSlices rest)
  complete : sliceClosing rest = some .complete
  wrapped : wrapOggOpus profile (receivedFrames C hdr fileKey rest) fileId =
    .ok bytes

/-- The log once the slices of `rest` have arrived. -/
def transferLog (fileId : UInt32) (hdr : FileHeader)
    (fileKey : Vector UInt8 32) (log : Log) (rest : List Delivery) : Log :=
  (acceptAll C fileId hdr fileKey (.start, log) (deliveredSlices rest)).2

/-- The world after a download that saves `bytes`. -/
def World.afterDownload (w : World) (fileId : UInt32) (outputDir : Path)
    (hdr : FileHeader) (rest rest' : List Delivery) (fileKey : Vector UInt8 32)
    (bytes : List UInt8) : World :=
  { (w.atHeader fileId rest).after rest'
      (transferLog C fileId hdr fileKey w.log rest) with
    disk := w.disk.put (opusPath outputDir fileId) bytes }

/-- The file of a download that has saved `bytes`. -/
theorem World.afterDownload_file (w : World) (fileId : UInt32) (outputDir : Path)
    (hdr : FileHeader) (rest rest' : List Delivery) (fileKey : Vector UInt8 32)
    (bytes : List UInt8) :
    (w.afterDownload C fileId outputDir hdr rest rest' fileKey bytes).disk
      (opusPath outputDir fileId) = some bytes := by
  simp [World.afterDownload, Disk.put]

/-- **Everything a successful download has done.** -/
theorem downloadFile_ok {profile : Profile} {env : Env} {fileId : UInt32}
    {sessionKey : Vector UInt8 32} {outputDir path : Path} {w w' : World}
    (h : (downloadFile C profile env fileId sessionKey outputDir).run w =
      .ok path w') :
    path = opusPath outputDir fileId ∧
      ((∃ data rest, HeaderArrives env w data rest ∧ byteAt data 95 = 3 ∧
          w' = w.atHeader fileId rest) ∨
        ∃ data rest fileKey bytes rest',
          Begins C env sessionKey w data rest fileKey ∧
          Saves C profile fileId (.read data) rest fileKey bytes ∧
          w' = w.afterDownload C fileId outputDir (.read data) rest rest'
            fileKey bytes) := by
  by_cases hbegins :
      ∃ data rest fileKey, Begins C env sessionKey w data rest fileKey
  · obtain ⟨data, rest, fileKey, hbegins⟩ := hbegins
    rw [downloadFile_begins C hbegins, EStateM.run_bind] at h
    rcases hloop : (recvUntil (sliceBody C profile fileId (.read data) fileKey)
        .start).run (w.atHeader fileId rest) with ⟨transfer, w₁⟩ | ⟨e, w₁⟩
    · rw [hloop] at h
      obtain ⟨hfit, hclose, hframes, rest', rfl⟩ := receiveSlices_ok C hloop
      obtain ⟨bytes, hwrap, rfl, rfl⟩ := saveFile_ok h
      rw [hframes] at hwrap
      exact ⟨rfl, Or.inr ⟨data, rest, fileKey, bytes, rest', hbegins,
        ⟨hfit, hclose, hwrap⟩, rfl⟩⟩
    · rw [hloop] at h
      cases h
  · rcases downloadFile_idle C fileId outputDir hbegins with
      ⟨data, rest, harrives, h3, hrun⟩ | ⟨e, w₁, -, -, hrun⟩
    · rw [hrun profile] at h
      cases h
      exact ⟨rfl, Or.inl ⟨data, rest, harrives, h3, rfl⟩⟩
    · rw [hrun profile] at h
      cases h

theorem downloadFile_ok_calls {profile : Profile} {env : Env} {fileId : UInt32}
    {sessionKey fileKey : Vector UInt8 32} {outputDir path : Path} {w w' : World}
    {data : List UInt8} {rest : List Delivery}
    (hbegins : Begins C env sessionKey w data rest fileKey)
    (h : (downloadFile C profile env fileId sessionKey outputDir).run w =
      .ok path w') :
    env.create = none ∧ env.writeAll = none ∧ env.flush = none := by
  rw [downloadFile_begins C hbegins] at h
  obtain ⟨transfer, w₁, -, hsave⟩ := run_bind_ok_iff.mp h
  exact saveFile_ok_calls hsave

/-- **When a download saves a file**: it begins, and what follows the header
delivers a recording that fits. -/
theorem downloadFile_saves {profile : Profile} {env : Env} {fileId : UInt32}
    {sessionKey fileKey : Vector UInt8 32} (outputDir : Path) {w : World}
    {data bytes : List UInt8} {rest : List Delivery}
    (hbegins : Begins C env sessionKey w data rest fileKey)
    (hsaves : Saves C profile fileId (.read data) rest fileKey bytes)
    (hcreate : env.create = none) (hwriteAll : env.writeAll = none)
    (hflush : env.flush = none) :
    ∃ rest', (downloadFile C profile env fileId sessionKey outputDir).run w =
      .ok (opusPath outputDir fileId)
        (w.afterDownload C fileId outputDir (.read data) rest rest' fileKey
          bytes) := by
  obtain ⟨transfer, rest', hframes, hloop⟩ := receiveSlices_complete C fileId
    (w := w.atHeader fileId rest) hsaves.fits hsaves.complete
  have hwrap := hsaves.wrapped
  rw [World.atHeader_rx] at hframes
  rw [← hframes] at hwrap
  refine ⟨rest', ?_⟩
  rw [downloadFile_begins C hbegins, EStateM.run_bind, hloop]
  exact saveFile_fine hwrap hcreate hwriteAll hflush

end MicRs
