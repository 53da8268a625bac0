import MicRs.Model.Builds
import MicRs.Transfer.Samples

/-!
# Arithmetic of a download

The three `u32` computations of the slice loop are exact in every round
(`AllFit`) exactly if the sequence numbers stay below 2^32 / 10 and the slices
below 2^32 / 160 (`InRange`). `downloadFile_exact_iff` carries this to the
whole download: it is free of overflow exactly if the slices it is sent are in
range.
-/

namespace MicRs

open MessageLoop

variable (C : Ciphers)

/-! ## The slice loop -/

/-- Slices whose block counters and byte count fit in 32 bits. -/
structure InRange (slices : List AudioSlice) : Prop where
  sequenceNumber : ∀ slice ∈ slices,
    slice.sequenceNumber.toNat ≤ 429496729
  count : slices.length ≤ 26843545

theorem length_chunk_of_delivered (ds : List Delivery) :
    ∀ slice ∈ deliveredSlices ds, slice.encryptedChunk.length = 160 := by
  apply forall_delivered
  intro d slices hd slice hslice
  rcases d with data | _
  · simp only [classifyDelivery, classifyMessage] at hd
    split_ifs at hd
    · cases hd
      cases hslice
    · cases hd
      exact length_encryptedChunk hslice
    · cases hd
      cases hslice
  · cases hd

/-- A round fits if its counter does and its 160 bytes do. -/
theorem fits_iff {st : Transfer} {slice : AudioSlice} {count : ℕ}
    (hlen : slice.encryptedChunk.length = 160)
    (hbytes : st.bytesReceived.toNat = 160 * count)
    (hlast : st.lastSeq.toNat ≤ 429496729) :
    st.Fits slice ↔ slice.sequenceNumber.toNat ≤ 429496729 ∧
      count + 1 ≤ 26843545 := by
  have hchunk : (UInt32.ofNat slice.encryptedChunk.length).toNat = 160 := by
    rw [hlen]
    rfl
  constructor
  · intro h
    have hcounter := h.counter
    have htotal := h.total
    omega
  · rintro ⟨hseq, hcount⟩
    exact ⟨by omega, by omega, by omega⟩

/-- The count of bytes is exact as long as the rounds fit. -/
theorem accept_bytesReceived (hdr : FileHeader) (fileKey : Vector UInt8 32)
    {st : Transfer} {slice : AudioSlice} {count : ℕ}
    (hlen : slice.encryptedChunk.length = 160)
    (hbytes : st.bytesReceived.toNat = 160 * count)
    (hcount : count + 1 ≤ 26843545) :
    (st.accept C hdr fileKey slice).bytesReceived.toNat = 160 * (count + 1) := by
  simp only [Transfer.accept, UInt32.toNat_add, hbytes, hlen]
  show (160 * count + 160) % 2 ^ 32 = 160 * (count + 1)
  omega

/-- **Every round fits exactly if the slices are in range**; by induction over
the slices, with the bytes of `count` slices received before them. -/
theorem allFit_iff {hdr : FileHeader} {fileKey : Vector UInt8 32}
    {slices : List AudioSlice} {st : Transfer} {count : ℕ}
    (hlen : ∀ slice ∈ slices, slice.encryptedChunk.length = 160)
    (hbytes : st.bytesReceived.toNat = 160 * count)
    (hlast : st.lastSeq.toNat ≤ 429496729) :
    AllFit C hdr fileKey st slices ↔
      (∀ slice ∈ slices, slice.sequenceNumber.toNat ≤ 429496729) ∧
        count + slices.length ≤ 26843545 := by
  induction slices generalizing st count with
  | nil =>
      have hlt := st.bytesReceived.toNat_lt
      simp only [AllFit, List.not_mem_nil, false_imp_iff, implies_true,
        List.length_nil, true_and, true_iff]
      omega
  | cons slice slices ih =>
      have hchunk := hlen slice List.mem_cons_self
      have hround := fits_iff hchunk hbytes hlast
      rw [AllFit, List.forall_mem_cons, List.length_cons]
      by_cases hfits : st.Fits slice
      · obtain ⟨hseq, hcount⟩ := hround.mp hfits
        have hnext := accept_bytesReceived C hdr fileKey hchunk hbytes hcount
        rw [ih (fun s hs => hlen s (List.mem_cons_of_mem _ hs)) hnext hseq]
        simp only [hfits, hseq, true_and]
        rw [Nat.add_assoc, Nat.add_comm 1]
      · rw [hround] at hfits
        constructor
        · rintro ⟨h, -⟩
          exact absurd (hround.mp h) hfits
        · rintro ⟨⟨hseq, -⟩, hcount⟩
          exact absurd ⟨hseq, by omega⟩ hfits

theorem allFit_delivered_iff {hdr : FileHeader} {fileKey : Vector UInt8 32}
    (ds : List Delivery) :
    AllFit C hdr fileKey .start (deliveredSlices ds) ↔
      InRange (deliveredSlices ds) := by
  have hbytes : Transfer.start.bytesReceived.toNat = 160 * 0 := rfl
  rw [allFit_iff C (length_chunk_of_delivered ds) hbytes (by decide),
    Nat.zero_add]
  exact ⟨fun h => ⟨h.1, h.2⟩, fun h => ⟨h.sequenceNumber, h.count⟩⟩

/-! ## The download -/

/-- No `u32` computation of a download overflows: every round of its slice loop
fits, a build with overflow checks does not panic, and one without them does
the same. -/
structure ArithmeticExact (env : Env) (fileId : UInt32)
    (sessionKey : Vector UInt8 32) (outputDir : Path) (w : World) : Prop where
  rounds : ∀ data rest fileKey, Begins C env sessionKey w data rest fileKey →
    AllFit C (.read data) fileKey .start (deliveredSlices rest)
  checked : ∀ p w',
    (downloadFile C .dev env fileId sessionKey outputDir).run w ≠
      .error (.panic p) w'
  unchecked : (downloadFile C .release env fileId sessionKey outputDir).run w =
    (downloadFile C .dev env fileId sessionKey outputDir).run w

variable {C} in
theorem ArithmeticExact.inRange {env : Env} {fileId : UInt32}
    {sessionKey fileKey : Vector UInt8 32} {outputDir : Path} {w : World}
    {data : List UInt8} {rest : List Delivery}
    (h : ArithmeticExact C env fileId sessionKey outputDir w)
    (hbegins : Begins C env sessionKey w data rest fileKey) :
    InRange (deliveredSlices rest) :=
  (allFit_delivered_iff C rest).mp (h.rounds data rest fileKey hbegins)

/-- Frames in range fit into a stream in every build. -/
theorem wrapOggOpus_of_inRange (profile : Profile) (fileId : UInt32)
    {frames : List (List UInt8)} (hcount : frames.length ≤ 26843545) :
    ∃ bytes, wrapOggOpus profile frames fileId = .ok bytes :=
  ⟨_, wrapOggOpus_eq (by simp only [pageCount, framesPerPage]; omega)
    (Or.inr (by simp only [pageCount, framesPerPage]; omega))⟩

/-- Slices in range do not make a download panic. -/
theorem downloadFile_no_panic {profile : Profile} {env : Env} {fileId : UInt32}
    {sessionKey fileKey : Vector UInt8 32} {outputDir : Path} {w w' : World}
    {data : List UInt8} {rest : List Delivery} {p : Panic}
    (hbegins : Begins C env sessionKey w data rest fileKey)
    (hrange : InRange (deliveredSlices rest)) :
    (downloadFile C profile env fileId sessionKey outputDir).run w ≠
      .error (.panic p) w' := by
  have hfit : profile = .release ∨ AllFit C (.read data) fileKey .start
      (deliveredSlices rest) := Or.inr ((allFit_delivered_iff C rest).mpr hrange)
  have hend := run_sliceBody C profile fileId (.read data) fileKey rest w.log
  rw [run_sliceItem C _ _ _ _ (deliveredSlices rest) .start w.log hfit] at hend
  rw [downloadFile_begins C hbegins, EStateM.run_bind, recvUntil_run,
    World.finish, World.atHeader_rx, World.atHeader_log]
  rcases hclose : sliceClosing rest with _ | _ | _
  · simp [hend, hclose]
  · simp only [hend, hclose, sliceFinish]
    have hcount : (acceptAll C fileId (.read data) fileKey (.start, w.log)
        (deliveredSlices rest)).1.rawFrames.length ≤ 26843545 := by
      rw [acceptAll_rawFrames]
      simpa [Transfer.start] using hrange.count
    obtain ⟨bytes, hwrap⟩ := wrapOggOpus_of_inRange profile fileId hcount
    exact saveFile_no_panic hwrap
  · simp [hend, hclose, sliceFinish]

/-- Slices out of range make a download panic in a build with overflow
checks. -/
theorem downloadFile_panics {env : Env} {fileId : UInt32}
    {sessionKey fileKey : Vector UInt8 32} {outputDir : Path} {w : World}
    {data : List UInt8} {rest : List Delivery}
    (hbegins : Begins C env sessionKey w data rest fileKey)
    (hrange : ¬ InRange (deliveredSlices rest)) :
    ∃ w', (downloadFile C .dev env fileId sessionKey outputDir).run w =
      .error (.panic .overflow) w' := by
  obtain ⟨log', hpanic⟩ := run_sliceItem_panic C fileId (.read data) fileKey
    (deliveredSlices rest)
    .start w.log fun hfit => hrange ((allFit_delivered_iff C rest).mp hfit)
  have hend := run_sliceBody C .dev fileId (.read data) fileKey rest w.log
  rw [hpanic] at hend
  rw [downloadFile_begins C hbegins, EStateM.run_bind, recvUntil_run,
    World.finish, World.atHeader_rx, World.atHeader_log]
  simp [hend]

/-- **A download is free of overflow** exactly if the slices it is sent, once
its slice loop begins, are in range. -/
theorem downloadFile_exact_iff (env : Env) (fileId : UInt32)
    (sessionKey : Vector UInt8 32) (outputDir : Path) (w : World) :
    ArithmeticExact C env fileId sessionKey outputDir w ↔
      ∀ data rest fileKey, Begins C env sessionKey w data rest fileKey →
        InRange (deliveredSlices rest) := by
  constructor
  · intro hexact data rest fileKey hbegins
    exact hexact.inRange hbegins
  · intro hrange
    have hchecked : ∀ p w',
        (downloadFile C .dev env fileId sessionKey outputDir).run w ≠
          .error (.panic p) w' := by
      intro p w'
      by_cases hbegins :
          ∃ data rest fileKey, Begins C env sessionKey w data rest fileKey
      · obtain ⟨data, rest, fileKey, hbegins⟩ := hbegins
        exact downloadFile_no_panic C hbegins (hrange _ _ _ hbegins)
      · rcases downloadFile_idle C fileId outputDir hbegins with
          ⟨_, _, _, _, hrun⟩ | ⟨_, _, -, -, hrun⟩ <;> simp [hrun]
    refine ⟨fun data rest fileKey hbegins => (allFit_delivered_iff C rest).mpr
      (hrange data rest fileKey hbegins), hchecked, ?_⟩
    apply (downloadFile_refines C .dev env fileId sessionKey outputDir).eq
    rintro e w' hrun ⟨p, rfl⟩
    exact hchecked p w' hrun

/-- A slice with sequence number 2^29 makes the product overflow, whatever the
ciphers are. -/
theorem downloadFile_overflows : ¬ ∃ C : Ciphers,
    ∀ (env : Env) (fileId : UInt32) (sessionKey : Vector UInt8 32)
      (outputDir : Path) (w : World),
      ArithmeticExact C env fileId sessionKey outputDir w := by
  rintro ⟨C, hexact⟩
  have hitems := classify_carries
    (carriesSlices_sliceMessage [.uniform 0x20000000 0])
  set rest : List Delivery := [.notification (sliceMessage [.uniform 0x20000000 0])]
    with hrest
  set w : World := .connected (.notification (zeroHeader C 1 0) :: rest) with hw
  have hbegins : Begins C .fine zeroKey w (zeroHeader C 1 0) rest zeroKey :=
    (isHonestHeader_zeroHeader C 1).begins rfl rfl
  have hrange := (hexact .fine 1 zeroKey [] w).inRange hbegins
  rw [hrest, deliveredSlices_cons_items [] hitems] at hrange
  exact absurd (hrange.sequenceNumber _ List.mem_cons_self) (by decide)

end MicRs
