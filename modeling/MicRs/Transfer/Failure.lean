import MicRs.Transfer.Frames
import MicRs.Transfer.Saved

/-!
# What a failed download leaves on disk

Nothing is written before a 1A0A message has ended the transfer and what was
received by then is wrapped, so a download that fails earlier leaves the disk as
it was. The file is then written in place: creating it drops the content it had,
and a failure of the write or of the flush leaves a beginning of the new content
(`downloadFile_failed`).
-/

namespace MicRs

open StateFrame

variable (C : Ciphers)

/-- A 1A0A ends the transfer of a download; the container of the slices received
by then is `bytes`, and fails to be written. -/
def FailsWriting (profile : Profile) (env : Env) (fileId : UInt32)
    (sessionKey : Vector UInt8 32) (w : World) (bytes : List UInt8) (n : ℕ)
    (message : String) : Prop :=
  (∃ data rest fileKey, Begins C env sessionKey w data rest fileKey ∧
    Saves C profile fileId (.read data) rest fileKey bytes) ∧
  WriteFails env n message

theorem downloadFile_write_fails {profile : Profile} {env : Env}
    {fileId : UInt32} {sessionKey : Vector UInt8 32} (outputDir : Path)
    {w : World} {bytes : List UInt8} {n : ℕ} {message : String}
    (h : FailsWriting C profile env fileId sessionKey w bytes n message) :
    ∃ w', (downloadFile C profile env fileId sessionKey outputDir).run w =
        .error (.error (.io message)) w' ∧
      w'.disk = w.disk.put (opusPath outputDir fileId) (bytes.take n) := by
  obtain ⟨⟨data, rest, fileKey, hbegins, hsaves⟩, hfails⟩ := h
  obtain ⟨transfer, rest', hframes, hloop⟩ := receiveSlices_complete C fileId
    (w := w.atHeader fileId rest) hsaves.fits hsaves.complete
  have hwrap := hsaves.wrapped
  rw [World.atHeader_rx] at hframes
  rw [← hframes] at hwrap
  let w₁ := (w.atHeader fileId rest).after rest'
    (transferLog C fileId (.read data) fileKey w.log rest)
  let disk := w.disk.put (opusPath outputDir fileId) (bytes.take n)
  refine ⟨{ w₁ with disk }, ?_, rfl⟩
  rw [downloadFile_begins C hbegins, EStateM.run_bind, hloop]
  exact saveFile_write_fails hwrap hfails

/-- A download that fails without such a write leaves the disk alone. -/
theorem downloadFile_error_disk {profile : Profile} {env : Env}
    {fileId : UInt32} {sessionKey : Vector UInt8 32} {outputDir : Path}
    {w w' : World} {fault : Fault}
    (h : (downloadFile C profile env fileId sessionKey outputDir).run w =
      .error fault w') :
    w'.disk = w.disk ∨ ∃ bytes n message,
      FailsWriting C profile env fileId sessionKey w bytes n message := by
  by_cases hbegins :
      ∃ data rest fileKey, Begins C env sessionKey w data rest fileKey
  · obtain ⟨data, rest, fileKey, hbegins⟩ := hbegins
    rw [downloadFile_begins C hbegins] at h
    have hloopKeeps := recvUntil_keeps ignoresChannel_disk
      (sliceBody C profile fileId (.read data) fileKey) .start
    rcases run_bind_error h with hloop | ⟨transfer, w₁, hloop, hsave⟩
    · have hdisk : w'.disk = (w.atHeader fileId rest).disk :=
        hloopKeeps.error hloop
      exact Or.inl hdisk
    · have hdisk : w₁.disk = (w.atHeader fileId rest).disk := hloopKeeps.ok hloop
      obtain ⟨hfit, hclose, hframes, -⟩ := receiveSlices_ok C hloop
      rcases saveFile_error hsave with rfl | ⟨bytes, n, message, hwrap, hfails⟩
      · exact Or.inl hdisk
      · rw [hframes] at hwrap
        exact Or.inr ⟨bytes, n, message,
          ⟨data, rest, fileKey, hbegins, hfit, hclose, hwrap⟩, hfails⟩
  · rcases downloadFile_idle C fileId outputDir hbegins with
      ⟨_, _, _, _, hrun⟩ | ⟨e, w₁, hdisk, -, hrun⟩
    · rw [hrun profile] at h
      cases h
    · rw [hrun profile] at h
      cases h
      exact Or.inl hdisk

/-- **What a failed download leaves on disk**: what was there before, unless the
device ended the transfer and the failure is that of writing its file, which is
left with a beginning of the new content. No other file is touched. -/
theorem downloadFile_failed {profile : Profile} {env : Env} {fileId : UInt32}
    {sessionKey : Vector UInt8 32} {outputDir : Path} {w w' : World}
    {fault : Fault}
    (h : (downloadFile C profile env fileId sessionKey outputDir).run w =
      .error fault w') :
    ((¬ ∃ bytes n message,
        FailsWriting C profile env fileId sessionKey w bytes n message) →
      w'.disk = w.disk) ∧
    (∀ bytes n message,
      FailsWriting C profile env fileId sessionKey w bytes n message →
      fault = .error (.io message) ∧
        w'.disk (opusPath outputDir fileId) = some (bytes.take n)) ∧
    ∀ path, path ≠ opusPath outputDir fileId → w'.disk path = w.disk path := by
  have hwrites : ∀ bytes n message,
      FailsWriting C profile env fileId sessionKey w bytes n message →
      fault = .error (.io message) ∧
        w'.disk = w.disk.put (opusPath outputDir fileId) (bytes.take n) := by
    intro bytes n message hfails
    obtain ⟨w₁, hrun, hdisk⟩ := downloadFile_write_fails C outputDir hfails
    rw [hrun] at h
    cases h
    exact ⟨rfl, hdisk⟩
  refine ⟨?_, ?_, ?_⟩
  · intro hno
    exact (downloadFile_error_disk C h).resolve_right hno
  · intro bytes n message hfails
    obtain ⟨hfault, hdisk⟩ := hwrites bytes n message hfails
    exact ⟨hfault, by simp [hdisk, Disk.put]⟩
  · intro path hpath
    rcases downloadFile_error_disk C h with hdisk | ⟨bytes, n, message, hfails⟩
    · rw [hdisk]
    · rw [(hwrites bytes n message hfails).2, Disk.put, Function.update_of_ne hpath]

/-! ## A copy that is lost -/

/-- An environment whose disk is full once the file is created. -/
def Env.diskFull : Env := { Env.fine with writeAll := some (0, "no space left") }

/-- A world with an earlier copy of file 1, and file 1 to arrive. -/
def copyWorld : World :=
  { zeroWorld C [] with disk := Disk.put (fun _ => none) (opusPath [] 1) [0] }

theorem copyWorld_failsWriting (profile : Profile) :
    ∃ bytes, FailsWriting C profile .diskFull 1 zeroKey (copyWorld C) bytes 0
      "no space left" := by
  have hbegins : Begins C .diskFull zeroKey (copyWorld C) (zeroHeader C 1 0)
      (sliceTransfer []) zeroKey :=
    (isHonestHeader_zeroHeader C 1).begins rfl rfl
  obtain ⟨hslices, hclosing⟩ := sliceTransfer_delivers []
  have hrange : InRange (deliveredSlices (sliceTransfer [])) := by
    rw [hslices]
    exact ⟨by simp, by simp⟩
  obtain ⟨bytes, hwrap⟩ := wrapOggOpus_received C 1 (Or.inr hrange)
  exact ⟨bytes, ⟨_, _, _, hbegins,
    Or.inr ((allFit_delivered_iff C _).mpr hrange), hclosing, hwrap⟩, rfl,
    Or.inl rfl⟩

theorem downloadFile_failed_diskFull : ∃ fault w',
    (downloadFile sampleCiphers .dev .diskFull 1 zeroKey []).run
      (copyWorld sampleCiphers) = .error fault w' ∧
    ((¬ ∃ bytes n message, FailsWriting sampleCiphers .dev .diskFull 1 zeroKey
        (copyWorld sampleCiphers) bytes n message) →
      w'.disk = (copyWorld sampleCiphers).disk) ∧
    (∀ bytes n message, FailsWriting sampleCiphers .dev .diskFull 1 zeroKey
        (copyWorld sampleCiphers) bytes n message →
      fault = .error (.io message) ∧
        w'.disk (opusPath [] 1) = some (bytes.take n)) ∧
    ∀ path, path ≠ opusPath [] 1 →
      w'.disk path = (copyWorld sampleCiphers).disk path := by
  obtain ⟨bytes, hfails⟩ := copyWorld_failsWriting sampleCiphers .dev
  obtain ⟨w', hrun, -⟩ := downloadFile_write_fails sampleCiphers [] hfails
  exact ⟨_, w', hrun, downloadFile_failed sampleCiphers hrun⟩

/-- A download that returns an error leaves every file as it was. -/
def FailureKeepsFiles : Prop :=
  ∀ (profile : Profile) (env : Env) (fileId : UInt32)
    (sessionKey : Vector UInt8 32) (outputDir : Path) (w w' : World)
    (e : RecorderError),
  (downloadFile C profile env fileId sessionKey outputDir).run w =
    .error (.error e) w' →
  ∀ path, w'.disk path = w.disk path

/-- **A failed write loses the earlier copy**, whatever the ciphers are. -/
theorem downloadFile_loses_copy : ¬ ∃ C : Ciphers, FailureKeepsFiles C := by
  rintro ⟨C, hclaim⟩
  obtain ⟨bytes, hfails⟩ := copyWorld_failsWriting C .dev
  obtain ⟨w', hrun, hdisk⟩ := downloadFile_write_fails C [] hfails
  have hsame := hclaim _ _ _ _ _ _ _ _ hrun (opusPath [] 1)
  rw [hdisk] at hsame
  simp [copyWorld, Disk.put] at hsame

end MicRs
