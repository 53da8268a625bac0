import MicRs.Base.Refine
import MicRs.Model.Recorder
import MicRs.Ogg.Writer

/-!
# Builds with and without overflow checks

A build with overflow checks does what one without does, or panics: function by
function up to `download_file` (`downloadFile_refines`) and any operation of
the recorder (`exec_refines`).
-/

namespace MicRs

open Refine

/-- A build does what one without overflow checks does, or panics. -/
abbrev RefinesRelease {σ α : Type} (x y : EStateM Fault σ α) : Prop :=
  Refines Fault.IsPanic x y

/-! ## Lifting -/

theorem refines_lift_rust {σ α : Type} {x y : Rust α}
    (h : ∀ a, x = .ok a → y = .ok a) :
    RefinesRelease (liftM x : EStateM Fault σ α) (liftM y) := by
  intro s
  rcases x with p | a
  · exact Or.inr ⟨.panic p, s, ⟨p, rfl⟩, rfl⟩
  · rw [h a rfl]
    exact Or.inl rfl

theorem refines_lift_log {α : Type} {x y : LogM α} (h : RefinesRelease x y) :
    RefinesRelease (liftM x : RecorderM α) (liftM y) := by
  intro w
  rw [run_lift_log, run_lift_log]
  rcases h w.log with heq | ⟨e, log, hpanic, herr⟩
  · rw [heq]
    exact Or.inl rfl
  · rw [herr]
    exact Or.inr ⟨e, _, hpanic, rfl⟩

theorem refines_recvLoop {σ β : Type}
    {body body' : σ → List UInt8 → LogM (σ ⊕ β)}
    (h : ∀ s data, RefinesRelease (body s data) (body' s data)) (fuel : ℕ)
    (s : σ) : RefinesRelease (recvLoop body fuel s) (recvLoop body' fuel s) := by
  induction fuel generalizing s with
  | zero => exact .refl _
  | succ fuel ih =>
      refine (Refines.refl recv).bind fun data => ?_
      refine (refines_lift_log (h s data)).bind fun r => ?_
      rcases r with s' | b
      · exact ih s'
      · exact .refl _

theorem refines_recvUntil {σ β : Type}
    {body body' : σ → List UInt8 → LogM (σ ⊕ β)}
    (h : ∀ s data, RefinesRelease (body s data) (body' s data)) (s : σ) :
    RefinesRelease (recvUntil body s) (recvUntil body' s) :=
  (Refines.refl get).bind fun w => refines_recvLoop h (w.rx.length + 1) s

/-! ## Download -/

variable (C : Ciphers) (E : Ecdh) (profile : Profile)

theorem decryptChunk_release_of_ok {fileKey : Vector UInt8 32}
    {nonceBase : Vector UInt8 16} {sequenceNumber : UInt32}
    {encrypted decrypted : List UInt8}
    (h : decryptChunk C profile fileKey nonceBase sequenceNumber encrypted =
      .ok decrypted) :
    decryptChunk C .release fileKey nonceBase sequenceNumber encrypted =
      .ok decrypted := by
  rw [decryptChunk] at h ⊢
  obtain ⟨counter, hcounter, h⟩ := bind_eq_ok.mp h
  exact bind_eq_ok.mpr ⟨counter, mulU32_release_of_ok hcounter, h⟩

theorem acceptSlice_refines (fileId : UInt32) (hdr : FileHeader)
    (fileKey : Vector UInt8 32) (st : Transfer) (slice : AudioSlice) :
    RefinesRelease (acceptSlice C profile fileId hdr fileKey st slice)
      (acceptSlice C .release fileId hdr fileKey st slice) := by
  refine (refines_lift_rust fun _ => addU32_release_of_ok).bind
    fun expected => ?_
  have hchunk : RefinesRelease (σ := Log)
      (liftM (decryptChunk C profile fileKey hdr.nonce slice.sequenceNumber
        slice.encryptedChunk))
      (liftM (decryptChunk C .release fileKey hdr.nonce slice.sequenceNumber
        slice.encryptedChunk)) :=
    refines_lift_rust fun _ => decryptChunk_release_of_ok C profile
  by_cases hgap : slice.sequenceNumber > expected ∧ st.lastSeq > 0
  · simp only [if_pos hgap]
    exact (Refines.refl _).bind fun _ => hchunk.bind fun decrypted =>
      (refines_lift_rust fun _ => addU32_release_of_ok).bind fun _ => .refl _
  · simp only [if_neg hgap]
    exact hchunk.bind fun decrypted =>
      (refines_lift_rust fun _ => addU32_release_of_ok).bind fun _ => .refl _

theorem sliceBody_refines (fileId : UInt32) (hdr : FileHeader)
    (fileKey : Vector UInt8 32) (st : Transfer) (data : List UInt8) :
    RefinesRelease (sliceBody C profile fileId hdr fileKey st data)
      (sliceBody C .release fileId hdr fileKey st data) := by
  refine (Refines.refl _).bind fun resp => ?_
  rcases resp with _ | resp
  · exact .refl _
  · by_cases htype : resp.cmdType ≠ cmdTypeFile
    · simp only [if_pos htype]
      exact .refl _
    · by_cases hslice : resp.cmdId = cmdFileSlice ∨
          resp.cmdId = cmdFileSliceSuppl
      · simp only [if_neg htype, if_pos hslice]
        exact (Refines.refl _).bind fun slices =>
          (Refines.foldlM (fun st slice =>
            acceptSlice_refines C profile fileId hdr fileKey st slice) slices
            st).bind fun _ => .refl _
      · simp only [if_neg htype, if_neg hslice]
        exact .refl _

theorem saveFile_refines (env : Env) (fileId : UInt32) (outputDir : Path)
    (frames : List (List UInt8)) :
    RefinesRelease (saveFile profile env fileId outputDir frames)
      (saveFile .release env fileId outputDir frames) :=
  (refines_lift_rust fun _ => wrapOggOpus_release_of_ok).bind
    fun _ => .refl _

theorem downloadFile_refines (env : Env) (fileId : UInt32)
    (sessionKey : Vector UInt8 32) (outputDir : Path) :
    RefinesRelease (downloadFile C profile env fileId sessionKey outputDir)
      (downloadFile C .release env fileId sessionKey outputDir) := by
  refine (Refines.refl _).bind fun _ => (Refines.refl _).bind fun hdr => ?_
  rw [acceptHeaderWith, acceptHeaderWith]
  rcases FileHeaderCode.ofByte hdr.code with _ | _ | _ | _ | code
  · refine (Refines.refl _).bind fun fileKey => ?_
    refine (refines_recvUntil (fun st data =>
      sliceBody_refines C profile fileId hdr fileKey st data) .start).bind
        fun transfer => ?_
    exact saveFile_refines profile env fileId outputDir transfer.rawFrames
  all_goals exact .refl _

/-! ## The recorder -/

theorem parseFileListLoop_release_of_ok {data : List UInt8}
    {remaining offset : ℕ} {files : List FileInfo}
    {result : Option (List FileInfo)}
    (h : parseFileListLoop profile data remaining offset files = .ok result) :
    parseFileListLoop .release data remaining offset files = .ok result := by
  induction remaining generalizing offset files with
  | zero => exact h
  | succ remaining ih =>
      rw [parseFileListLoop] at h ⊢
      by_cases hend : offset + 8 > data.length
      · rw [if_pos hend] at h ⊢
        exact h
      · rw [if_neg hend] at h ⊢
        obtain ⟨time, htime, h⟩ := bind_eq_ok.mp h
        refine bind_eq_ok.mpr ⟨time, htime, ?_⟩
        revert h
        rcases tryIntoArray 4 time with _ | time
        · exact id
        · intro h
          obtain ⟨duration, hduration, h⟩ := bind_eq_ok.mp h
          refine bind_eq_ok.mpr ⟨duration, hduration, ?_⟩
          revert h
          rcases tryIntoArray 4 duration with _ | duration
          · exact id
          · intro h
            obtain ⟨size, hsize, h⟩ := bind_eq_ok.mp h
            exact bind_eq_ok.mpr ⟨size, mulU32_release_of_ok hsize, ih h⟩

theorem parseFileList_release_of_ok {data : List UInt8}
    {result : Option (List FileInfo)}
    (h : parseFileList profile data = .ok result) :
    parseFileList .release data = .ok result := by
  rw [parseFileList] at h ⊢
  by_cases hlen : data.length < 11
  · rw [if_pos hlen] at h ⊢
    exact h
  · rw [if_neg hlen] at h ⊢
    obtain ⟨count, hcount, h⟩ := bind_eq_ok.mp h
    refine bind_eq_ok.mpr ⟨count, hcount, ?_⟩
    revert h
    rcases tryIntoArray 2 count with _ | count
    · exact id
    · exact parseFileListLoop_release_of_ok profile

theorem listFiles_refines (env : Env) :
    RefinesRelease (listFiles profile env) (listFiles .release env) := by
  refine (Refines.refl _).bind fun resp => (Refines.refl _).bind fun header => ?_
  rcases header with _ | header
  · exact .refl _
  · by_cases hkind : header.cmdType ≠ cmdTypeFile ∨
        header.cmdId ≠ cmdGetAllFiles
    · simp only [if_pos hkind]
      exact .refl _
    · simp only [if_neg hkind]
      exact (refines_lift_rust fun _ => parseFileList_release_of_ok profile).bind
        fun files => .refl _

/-- **Every operation of the recorder** does in any build what it does in one
without overflow checks, or panics. -/
theorem exec_refines (call : Call E.Secret) :
    RefinesRelease (call.exec C E profile) (call.exec C E .release) := by
  obtain ⟨op, env⟩ := call
  cases op with
  | listFiles =>
      exact (listFiles_refines profile env).bind fun files => .refl _
  | downloadFile fileId outputDir =>
      refine Refines.bind ?_ fun path => .refl _
      refine (Refines.refl _).bind fun w => ?_
      rcases w.sessionKey with _ | key
      · exact .refl _
      · exact downloadFile_refines C profile env fileId key outputDir
  | _ => exact .refl _

end MicRs
