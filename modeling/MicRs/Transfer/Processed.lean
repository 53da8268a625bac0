import MicRs.Transfer.Overflow

/-!
# How far a download comes

A build without overflow checks goes through every slice that is delivered. One
with them stops at the first slice that does not fit: it accepts the slices in
front of it (`acceptedSlices`), and goes through it, too (`processedSlices`).
What is in the log at the end is what these slices put there
(`downloadFile_log`).
-/

namespace MicRs

open MessageLoop StateFrame

/-! ## The slices of a run -/

/-- The slices a download goes through when `slices` are delivered, with `count`
of them behind it: all of them, but in a build with overflow checks none after
the first whose block counter or byte count does not fit. -/
def processedSlices (profile : Profile) (count : ℕ) :
    List AudioSlice → List AudioSlice
  | [] => []
  | slice :: slices =>
      if profile = .release ∨
          (slice.sequenceNumber.toNat ≤ 429496729 ∧ count + 1 ≤ 26843545) then
        slice :: processedSlices profile (count + 1) slices
      else [slice]

/-- The slices of which a download keeps the frames: as above, but without the
one that does not fit. -/
def acceptedSlices (profile : Profile) (count : ℕ) :
    List AudioSlice → List AudioSlice
  | [] => []
  | slice :: slices =>
      if profile = .release ∨
          (slice.sequenceNumber.toNat ≤ 429496729 ∧ count + 1 ≤ 26843545) then
        slice :: acceptedSlices profile (count + 1) slices
      else []

theorem acceptedSlices_isPrefix (profile : Profile) (count : ℕ)
    (slices : List AudioSlice) :
    acceptedSlices profile count slices <+: slices := by
  induction slices generalizing count with
  | nil => exact List.prefix_rfl
  | cons slice slices ih =>
      rw [acceptedSlices]
      split
      · exact (List.prefix_cons_inj slice).mpr (ih (count + 1))
      · exact List.nil_prefix

/-- A build without overflow checks accepts every slice. -/
theorem acceptedSlices_release (count : ℕ) (slices : List AudioSlice) :
    acceptedSlices .release count slices = slices := by
  induction slices generalizing count with
  | nil => rfl
  | cons slice slices ih =>
      rw [acceptedSlices, if_pos (Or.inl rfl), ih]

/-! ## The slice loop -/

variable (C : Ciphers)

/-- The bytes of `count` slices are counted exactly, and the last number leaves
room for the next. A build without overflow checks does not depend on that. -/
def ExactSoFar (profile : Profile) (count : ℕ) (st : Transfer) : Prop :=
  profile = .release ∨
    (st.bytesReceived.toNat = 160 * count ∧ st.lastSeq.toNat ≤ 429496729)

theorem exactSoFar_start (profile : Profile) : ExactSoFar profile 0 .start :=
  Or.inr ⟨rfl, by decide⟩

section OneSlice

variable {profile : Profile} {count : ℕ} {st : Transfer} {slice : AudioSlice}

theorem ExactSoFar.fits (h : ExactSoFar profile count st)
    (hlen : slice.encryptedChunk.length = 160)
    (hgo : profile = .release ∨
      (slice.sequenceNumber.toNat ≤ 429496729 ∧ count + 1 ≤ 26843545)) :
    profile = .release ∨ st.Fits slice := by
  rcases hgo with hrelease | hgo
  · exact Or.inl hrelease
  · exact h.imp_right fun hst => (fits_iff hlen hst.1 hst.2).mpr hgo

/-- The slice that ends a run is one that does not fit. -/
theorem ExactSoFar.not_fits (h : ExactSoFar profile count st)
    (hlen : slice.encryptedChunk.length = 160)
    (hstop : ¬ (profile = .release ∨
      (slice.sequenceNumber.toNat ≤ 429496729 ∧ count + 1 ≤ 26843545))) :
    profile = .dev ∧ ¬ st.Fits slice ∧ st.lastSeq.toNat ≤ 429496729 := by
  rw [not_or] at hstop
  obtain ⟨hbytes, hlast⟩ := h.resolve_left hstop.1
  exact ⟨Profile.eq_dev hstop.1,
    fun hfit => hstop.2 ((fits_iff hlen hbytes hlast).mp hfit), hlast⟩

/-- **A slice that is accepted is counted exactly.** -/
theorem ExactSoFar.accept (h : ExactSoFar profile count st) (hdr : FileHeader)
    (fileKey : Vector UInt8 32) (hlen : slice.encryptedChunk.length = 160)
    (hgo : profile = .release ∨
      (slice.sequenceNumber.toNat ≤ 429496729 ∧ count + 1 ≤ 26843545)) :
    ExactSoFar profile (count + 1) (st.accept C hdr fileKey slice) := by
  rcases hgo with hrelease | hgo
  · exact Or.inl hrelease
  · exact h.imp_right fun hst =>
      ⟨accept_bytesReceived C hdr fileKey hlen hst.1 hgo.2, hgo.1⟩

end OneSlice

/-- The log at the end of a run over slices. -/
def logOf : (Transfer × Log) ⊕ (Fault × Log) → Log
  | .inl s => s.2
  | .inr f => f.2

/-- **What the item loop logs**, and which slices it goes through; by induction
over the slices, with `count` of them behind it. -/
theorem run_sliceItem_log {profile : Profile} (fileId : UInt32)
    (hdr : FileHeader) (fileKey : Vector UInt8 32) {slices : List AudioSlice}
    {st : Transfer} {count : ℕ} (log : Log)
    (hlen : ∀ slice ∈ slices, slice.encryptedChunk.length = 160)
    (hst : ExactSoFar profile count st) :
    slices = processedSlices profile count slices ++
        (run (sliceItem C profile fileId hdr fileKey) (st, log) slices).rest ∧
      (logOf (run (sliceItem C profile fileId hdr fileKey) (st, log)
          slices).ending).reports =
        (acceptAll C fileId hdr fileKey (st, log)
          (acceptedSlices profile count slices)).2.reports ∧
      (logOf (run (sliceItem C profile fileId hdr fileKey) (st, log)
          slices).ending).warnings =
        (acceptAll C fileId hdr fileKey (st, log)
          (processedSlices profile count slices)).2.warnings := by
  induction slices generalizing st count log with
  | nil => exact ⟨rfl, rfl, rfl⟩
  | cons slice slices ih =>
      have hchunk := hlen slice List.mem_cons_self
      by_cases hgo : profile = .release ∨
          (slice.sequenceNumber.toNat ≤ 429496729 ∧ count + 1 ≤ 26843545)
      · have hstep : sliceItem C profile fileId hdr fileKey (st, log) slice =
            .inl (st.accept C hdr fileKey slice,
              log.accept fileId hdr st slice) :=
          sliceItem_fits C profile fileId hdr fileKey log (hst.fits hchunk hgo)
        obtain ⟨hslices, hreports, hwarnings⟩ := ih
          (log.accept fileId hdr st slice)
          (fun slice hslice => hlen slice (List.mem_cons_of_mem _ hslice))
          (hst.accept C hdr fileKey hchunk hgo)
        rw [processedSlices, if_pos hgo, acceptedSlices, if_pos hgo,
          run_cons_continue slices hstep]
        refine ⟨?_, hreports, hwarnings⟩
        rw [List.cons_append, ← hslices]
      · obtain ⟨rfl, hfit, hlast⟩ := hst.not_fits hchunk hgo
        obtain ⟨log', hstep, hreports, hwarnings⟩ := sliceItem_panic C fileId hdr
          fileKey log hfit
        rw [processedSlices, if_neg hgo, acceptedSlices, if_neg hgo,
          run_cons_stop slices hstep]
        exact ⟨rfl, hreports, hwarnings (by omega)⟩

/-! ## The download -/

theorem receiveSlices_log (profile : Profile) (fileId : UInt32)
    (hdr : FileHeader) (fileKey : Vector UInt8 32) (w : World) :
    (finalState ((recvUntil (sliceBody C profile fileId hdr fileKey)
      .start).run w)).log =
      logOf (run (sliceItem C profile fileId hdr fileKey) (.start, w.log)
        (deliveredSlices w.rx)).ending := by
  have hend := run_sliceBody C profile fileId hdr fileKey w.rx w.log
  rw [recvUntil_run]
  rcases hitems : (run (sliceItem C profile fileId hdr fileKey) (.start, w.log)
      (deliveredSlices w.rx)).ending with s | f
  · rcases hclose : sliceClosing w.rx with _ | _ | _ <;>
      simp only [hitems, hclose, sliceFinish] at hend <;>
      simp only [World.finish, hend] <;> rfl
  · simp only [hitems] at hend
    simp only [World.finish, hend]
    rfl

/-- **The log of a download** that begins, however it ends. -/
theorem downloadFile_log {profile : Profile} {env : Env} {fileId : UInt32}
    {sessionKey fileKey : Vector UInt8 32} {outputDir : Path} {w : World}
    {data : List UInt8} {rest : List Delivery}
    (h : Begins C env sessionKey w data rest fileKey) :
    (finalState ((downloadFile C profile env fileId sessionKey outputDir).run
        w)).log.reports =
        (acceptAll C fileId (.read data) fileKey (.start, w.log)
          (acceptedSlices profile 0 (deliveredSlices rest))).2.reports ∧
      (finalState ((downloadFile C profile env fileId sessionKey outputDir).run
        w)).log.warnings =
        (acceptAll C fileId (.read data) fileKey (.start, w.log)
          (processedSlices profile 0 (deliveredSlices rest))).2.warnings := by
  have hsave : ∀ transfer : Transfer, Keeps World.log
      (saveFile profile env fileId outputDir transfer.rawFrames) := fun _ =>
    saveFile_keeps ignoresDisk_log _ _ _ _ _
  rw [downloadFile_begins C h, Keeps.after_bind hsave, receiveSlices_log]
  exact (run_sliceItem_log C fileId (.read data) fileKey w.log
    (length_chunk_of_delivered rest) (exactSoFar_start profile)).2

/-- A download that does not begin logs nothing. -/
theorem downloadFile_log_idle {profile : Profile} {env : Env} (fileId : UInt32)
    {sessionKey : Vector UInt8 32} (outputDir : Path) {w : World}
    (h : ¬ ∃ data rest fileKey, Begins C env sessionKey w data rest fileKey) :
    (finalState ((downloadFile C profile env fileId sessionKey outputDir).run
      w)).log = w.log := by
  rcases downloadFile_idle C fileId outputDir h with
    ⟨_, _, _, _, hrun⟩ | ⟨_, _, -, hlog, hrun⟩
  · rw [hrun profile]
    rfl
  · rw [hrun profile]
    exact hlog

end MicRs
