import MicRs.Base.Observer
import MicRs.Transfer.Failure

/-!
# Downloads with a callback

The callback hears of each slice when it is decrypted, before the next one is
looked at (`acceptSliceWith`). So a download with a callback does what it does
without one, unless the callback panics on one of the reports of that download
(`downloadFile_observes`). What is still in the channel then stays there, and
nothing has been written to the disk (`downloadFile_panic_disk`).
-/

namespace MicRs

open StateFrame Observer

variable (C : Ciphers) (profile : Profile) (progress : Callback)

/-- `y` is `x` with the callback, in the part that only logs. -/
abbrev Log.Observes {α : Type} (x y : LogM α) : Prop :=
  Observer.Observes Log.reports Fault.panic progress x y

/-- `y` is `x` with the callback. -/
abbrev World.Observes {α : Type} (x y : RecorderM α) : Prop :=
  Observer.Observes (fun w => w.log.reports) Fault.panic progress x y

theorem observes_rust {α : Type} (x : Rust α) :
    Log.Observes progress (liftM x : LogM α) (liftM x) := by
  apply Observes.refl
  rcases x with p | a
  · exact Keeps.throw _
  · exact Keeps.pure a

/-! ## One slice -/

/-- Where the report is made, the callback hears of it. -/
theorem report_observes (report : DownloadProgress) (st : Transfer) :
    Log.Observes progress
      (do
        modify fun log => { log with reports := log.reports ++ [report] }
        quiet report
        return st)
      (do
        modify fun log => { log with reports := log.reports ++ [report] }
        progress report
        return st) := by
  refine Observes.report (fun _ => rfl) ?_ ?_ (Keeps.pure _)
  · intro hok log
    rw [hok]
    rfl
  · intro p hpanics log
    rw [hpanics]
    rfl

/-- Up to the report the callback plays no part. -/
theorem acceptSlice_observes (fileId : UInt32) (hdr : FileHeader)
    (fileKey : Vector UInt8 32) (st : Transfer) (slice : AudioSlice) :
    Log.Observes progress
      (acceptSliceWith C profile quiet fileId hdr fileKey st slice)
      (acceptSliceWith C profile progress fileId hdr fileKey st slice) := by
  unfold acceptSliceWith
  refine (observes_rust progress _).bind fun expected => ?_
  by_cases hgap : slice.sequenceNumber > expected ∧ st.lastSeq > 0
  · simp only [if_pos hgap]
    refine Observes.bind (.refl ?_) fun _ => ?_
    · exact Keeps.modify fun _ => rfl
    · exact (observes_rust progress _).bind fun decrypted =>
        (observes_rust progress _).bind fun bytesReceived =>
          report_observes progress _ _
  · simp only [if_neg hgap]
    exact (observes_rust progress _).bind fun decrypted =>
      (observes_rust progress _).bind fun bytesReceived =>
        report_observes progress _ _

/-- A message is looked at slice by slice. -/
theorem sliceBody_observes (fileId : UInt32) (hdr : FileHeader)
    (fileKey : Vector UInt8 32) (st : Transfer) (data : List UInt8) :
    Log.Observes progress
      (sliceBodyWith C profile quiet fileId hdr fileKey st data)
      (sliceBodyWith C profile progress fileId hdr fileKey st data) := by
  have hpure : ∀ r : Transfer ⊕ Transfer,
      Log.Observes progress (pure r : LogM _) (pure r) :=
    fun r => .refl (Keeps.pure r)
  unfold sliceBodyWith
  refine (observes_rust progress _).bind fun resp => ?_
  rcases resp with _ | resp
  · exact hpure _
  · by_cases htype : resp.cmdType ≠ cmdTypeFile
    · simp only [if_pos htype]
      exact hpure _
    · by_cases hslice : resp.cmdId = cmdFileSlice ∨
          resp.cmdId = cmdFileSliceSuppl
      · simp only [if_neg htype, if_pos hslice]
        refine (observes_rust progress _).bind fun slices => ?_
        exact (Observes.foldlM (acceptSlice_observes C profile progress fileId
          hdr fileKey) slices st).bind fun _ => hpure _
      · simp only [if_neg htype, if_neg hslice]
        split
        · exact hpure _
        · exact hpure _

/-! ## The loop and the download -/

variable {progress} in
theorem observes_lift_log {α : Type} {x y : LogM α}
    (h : Log.Observes progress x y) :
    World.Observes progress (liftM x : RecorderM α) (liftM y) := by
  intro w
  obtain ⟨new, hnew, hcases⟩ := h w.log
  refine ⟨new, ?_, ?_⟩
  · rw [run_lift_log]
    rcases hx : x.run w.log with ⟨a, log⟩ | ⟨e, log⟩
    · rw [hx] at hnew
      exact hnew
    · rw [hx] at hnew
      exact hnew
  · rw [run_lift_log, run_lift_log]
    rcases hcases with ⟨hheard, hy⟩ | ⟨p, log, hfails, hy⟩
    · exact Or.inl ⟨hheard, by rw [hy]⟩
    · exact Or.inr ⟨p, { w with log }, hfails, by rw [hy]⟩

theorem recv_observes : World.Observes progress recv recv := by
  apply Observes.refl
  intro w
  rw [recv_run]
  rcases w.rx with _ | ⟨_ | _, rest⟩ <;> rfl

variable {progress} in
theorem recvLoop_observes {σ β : Type}
    {body body' : σ → List UInt8 → LogM (σ ⊕ β)}
    (h : ∀ s data, Log.Observes progress (body s data) (body' s data))
    (fuel : ℕ) (s : σ) :
    World.Observes progress (recvLoop body fuel s) (recvLoop body' fuel s) := by
  induction fuel generalizing s with
  | zero => exact .refl (Keeps.throw _)
  | succ fuel ih =>
      refine (recv_observes progress).bind fun data => ?_
      refine (observes_lift_log (h s data)).bind fun r => ?_
      rcases r with s' | b
      · exact ih s'
      · exact .refl (Keeps.pure _)

variable {progress} in
theorem recvUntil_observes {σ β : Type}
    {body body' : σ → List UInt8 → LogM (σ ⊕ β)}
    (h : ∀ s data, Log.Observes progress (body s data) (body' s data)) (s : σ) :
    World.Observes progress (recvUntil body s) (recvUntil body' s) :=
  (Observes.refl Keeps.get).bind fun w =>
    recvLoop_observes h (w.rx.length + 1) s

/-- **A download with a callback is the download without it**, up to the report
on which the callback panics, if there is one. -/
theorem downloadFile_observes (env : Env) (fileId : UInt32)
    (sessionKey : Vector UInt8 32) (outputDir : Path) :
    World.Observes progress
      (downloadFileWith C profile quiet env fileId sessionKey outputDir)
      (downloadFileWith C profile progress env fileId sessionKey outputDir) := by
  have hsend : Keeps (fun w : World => w.log.reports)
      (send env (fileHeaderRequest fileId 0)) := by
    intro w
    rw [send]
    rcases env.write with _ | e <;> rfl
  have hwait : Keeps (fun w : World => w.log.reports)
      (recvUntil headerBody ()) :=
    fun w => congrArg Log.reports (receiveHeader_keeps_log w)
  unfold downloadFileWith
  refine (Observes.refl hsend).bind fun _ => ?_
  refine (Observes.refl hwait).bind fun hdr => ?_
  unfold acceptHeaderWith
  rcases FileHeaderCode.ofByte hdr.code with _ | _ | _ | _ | code
  · refine (Observes.refl (stateless_result _).keeps).bind fun fileKey => ?_
    refine (recvUntil_observes (sliceBody_observes C profile progress fileId hdr
      fileKey) .start).bind fun transfer => ?_
    exact .refl (saveFile_keeps (fun _ _ => rfl) _ _ _ _ _)
  · exact .refl (Keeps.throw _)
  · exact .refl (Keeps.throw _)
  · exact .refl (Keeps.pure _)
  · exact .refl (Keeps.throw _)

/-- **A download that panics leaves the disk alone**, whether it is the callback
or the crate that does. -/
theorem downloadFile_panic_disk {env : Env} {fileId : UInt32}
    {sessionKey : Vector UInt8 32} {outputDir : Path} {w w' : World}
    {p : Panic}
    (h : (downloadFileWith C profile progress env fileId sessionKey
      outputDir).run w = .error (.panic p) w') :
    w'.disk = w.disk := by
  have hsend := send_keeps ignoresChannel_disk env (fileHeaderRequest fileId 0)
  have hwait := recvUntil_keeps ignoresChannel_disk headerBody ()
  unfold downloadFileWith at h
  rcases run_bind_error h with hfails | ⟨_, w₁, hsent, h⟩
  · exact hsend.error hfails
  rcases run_bind_error h with hfails | ⟨hdr, w₂, hheader, h⟩
  · exact (hwait.error hfails).trans (hsend.ok hsent)
  refine Eq.trans ?_ ((hwait.ok hheader).trans (hsend.ok hsent))
  revert h
  unfold acceptHeaderWith
  rcases FileHeaderCode.ofByte hdr.code with _ | _ | _ | _ | code
  · intro h
    have hkey := (stateless_result (decryptFileKey C sessionKey
      hdr.encryptedKey hdr.sessionNonce)).keeps (f := World.disk)
    unfold transferFileWith at h
    rcases run_bind_error h with hfails | ⟨fileKey, w₃, hopened, h⟩
    · exact hkey.error hfails
    have hloop := recvUntil_keeps ignoresChannel_disk
      (sliceBodyWith C profile progress fileId hdr fileKey) .start
    rcases run_bind_error h with hfails | ⟨transfer, w₄, hreceived, hsave⟩
    · exact (hloop.error hfails).trans (hkey.ok hopened)
    refine Eq.trans ?_ ((hloop.ok hreceived).trans (hkey.ok hopened))
    rcases saveFile_error hsave with rfl | ⟨bytes, n, message, hwrap, hwrites⟩
    · rfl
    · rw [saveFile_write_fails hwrap hwrites] at hsave
      cases hsave
  all_goals
    intro h
    cases h

/-! ## Through the recorder -/

theorem recorderDownloadFile_observes (env : Env) (fileId : UInt32)
    (outputDir : Path) :
    World.Observes progress
      (recorderDownloadFileWith C profile quiet env fileId outputDir)
      (recorderDownloadFileWith C profile progress env fileId outputDir) := by
  unfold recorderDownloadFileWith
  refine (Observes.refl Keeps.get).bind fun w => ?_
  rcases w.sessionKey with _ | key
  · exact .refl (Keeps.throw _)
  · exact downloadFile_observes C profile progress env fileId key outputDir

theorem recorderDownloadFile_panic_disk {env : Env} {fileId : UInt32}
    {outputDir : Path} {w w' : World} {p : Panic}
    (h : (recorderDownloadFileWith C profile progress env fileId
      outputDir).run w = .error (.panic p) w') :
    w'.disk = w.disk := by
  rcases hkey : w.sessionKey with _ | key
  · simp [recorderDownloadFileWith, hkey] at h
  · have hrun : (downloadFileWith C profile progress env fileId key
        outputDir).run w = .error (.panic p) w' := by
      simpa [recorderDownloadFileWith, hkey] using h
    exact downloadFile_panic_disk C profile progress hrun

end MicRs
