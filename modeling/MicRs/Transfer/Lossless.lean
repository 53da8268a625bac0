import MicRs.Transfer.Saved

/-!
# An honest transfer is lossless

A device that sends a recording as the protocol lays it out
(`SendsRecording`), in any grouping of slices into messages, has the very
frames it encrypted saved at the other end (`downloadFile_lossless`).
-/

namespace MicRs

variable (C : Ciphers)

/-- Slice `i` carries frame `i`, encrypted from counter block `10 * i` on. -/
def EncryptsFrames (fileKey : Vector UInt8 32) (nonce : Vector UInt8 16)
    (frames : List (List UInt8)) (slices : List WireSlice) : Prop :=
  slices.map (fun slice => (slice.sequenceNumber, slice.chunk)) =
    frames.mapIdx fun i frame => (UInt32.ofNat i,
      aes256Ctr C fileKey (chunkIv nonce (UInt32.ofNat (10 * i))) frame)

/-- The device answers a download: the header, messages with the slices, the
completion, and whatever comes after it. -/
def SendsRecording (sessionKey : Vector UInt8 32) (fileId : UInt32)
    (fileKey : Vector UInt8 32) (nonce sessionNonce : Vector UInt8 16)
    (frames : List (List UInt8)) (ds : List Delivery) : Prop :=
  ∃ header batches messages done rest,
    IsHonestHeader C sessionKey fileId fileKey nonce sessionNonce header ∧
    EncryptsFrames C fileKey nonce frames batches.flatten ∧
    List.Forall₂ CarriesSlices batches messages ∧
    IsResponse cmdTypeFile cmdFileComplete done ∧
    ds = .notification header ::
      (messages.map .notification ++ .notification done :: rest)

/-- Every frame is decrypted under the counter it was encrypted under. -/
theorem map_frameOf_parsed {hdr : FileHeader} {fileKey : Vector UInt8 32}
    {frames : List (List UInt8)} {slices : List WireSlice}
    (h : EncryptsFrames C fileKey hdr.nonce frames slices) :
    (slices.map WireSlice.parsed).map (frameOf C hdr fileKey) = frames := by
  have hdecrypt : (slices.map WireSlice.parsed).map (frameOf C hdr fileKey) =
      (slices.map fun slice => (slice.sequenceNumber, slice.chunk)).map
        fun p => aes256Ctr C fileKey
          (chunkIv hdr.nonce (p.1 * blocksPerPacket)) p.2 := by
    simp only [List.map_map]
    rfl
  rw [hdecrypt, h]
  apply List.ext_getElem (by simp)
  intro i hi hi'
  have hcounter : UInt32.ofNat i * blocksPerPacket = UInt32.ofNat (10 * i) := by
    rw [Nat.mul_comm, UInt32.ofNat_mul]
    rfl
  simp only [List.getElem_map, List.getElem_mapIdx, hcounter,
    aes256Ctr_involutive]

/-- Slices numbered from zero on are in range if there are few enough. -/
theorem inRange_of_encryptsFrames {fileKey : Vector UInt8 32}
    {nonce : Vector UInt8 16} {frames : List (List UInt8)}
    {slices : List WireSlice} (h : EncryptsFrames C fileKey nonce frames slices)
    (hcount : frames.length ≤ 26843545) :
    InRange (slices.map WireSlice.parsed) := by
  have hlen : slices.length = frames.length := by
    simpa using congrArg List.length h
  refine ⟨fun slice hslice => ?_, by rw [List.length_map]; omega⟩
  obtain ⟨wire, hwire, rfl⟩ := List.mem_map.mp hslice
  obtain ⟨i, hi, rfl⟩ := List.getElem_of_mem hwire
  have hnumber : slices[i].sequenceNumber = UInt32.ofNat i := by
    have hpair := List.getElem_of_eq h (i := i) (by simpa using hi)
    rw [List.getElem_map, List.getElem_mapIdx] at hpair
    exact congrArg Prod.fst hpair
  simp only [WireSlice.parsed, hnumber, UInt32.toNat_ofNat']
  omega

/-- **An honest transfer is lossless**, in every build and for every grouping
of the slices into messages. -/
theorem downloadFile_lossless {profile : Profile} {fileId : UInt32}
    {sessionKey fileKey : Vector UInt8 32} {nonce sessionNonce : Vector UInt8 16}
    {frames : List (List UInt8)} {outputDir : Path} {w : World}
    (hcount : frames.length ≤ 26843545)
    (hsends : SendsRecording C sessionKey fileId fileKey nonce sessionNonce
      frames w.rx) :
    ∃ bytes w', wrapOggOpus profile frames fileId = .ok bytes ∧
      (downloadFile C profile .fine fileId sessionKey outputDir).run w =
        .ok (opusPath outputDir fileId) w' ∧
      w'.disk (opusPath outputDir fileId) = some bytes := by
  obtain ⟨header, batches, messages, done, rest, hheader, hslices, hmessages,
    hdone, hrx⟩ := hsends
  obtain ⟨hdelivered, hclosing⟩ := deliveries_of_carries rest hdone hmessages
  have hbegins := hheader.begins (show Env.fine.write = none from rfl) hrx
  have hnonce : (FileHeader.read header).nonce = nonce := hheader.read.2.1
  have hframes : receivedFrames C (.read header) fileKey
      (messages.map .notification ++ .notification done :: rest) = frames := by
    rw [receivedFrames, hdelivered]
    rw [← hnonce] at hslices
    exact map_frameOf_parsed C hslices
  have hrange := inRange_of_encryptsFrames C hslices hcount
  rw [← hdelivered] at hrange
  have hsaved := downloadFile_delivers C profile fileId outputDir hbegins
    hclosing (Or.inr hrange)
  rw [hframes] at hsaved
  exact hsaved

/-- What arrives for a recording of three frames: two slices with the longest
trailer in a 1A08 message, one in a 1A12 message, and more behind the
completion. -/
def threeTransfer : List Delivery :=
  [.notification (zeroHeader C 1 0),
    .notification (message 1 cmdTypeFile cmdFileSlice
      ([zeroSlice C 0 1, zeroSlice C 1 2].flatMap WireSlice.encode ++
        List.replicate 165 0xFF)),
    .notification (message 1 cmdTypeFile cmdFileSliceSuppl
      ([zeroSlice C 2 3].flatMap WireSlice.encode ++ [0x5A])),
    .notification completeMessage, .silence]

theorem sendsRecording_threeTransfer :
    SendsRecording C zeroKey 1 zeroKey zeroNonce zeroNonce
      [List.replicate 160 1, List.replicate 160 2, List.replicate 160 3]
      (threeTransfer C) := by
  have hlongest : (List.replicate 165 (0xFF : UInt8)).length < 166 := by
    rw [List.length_replicate]
    decide
  have hslices : EncryptsFrames C zeroKey zeroNonce
      [List.replicate 160 1, List.replicate 160 2, List.replicate 160 3]
      [[zeroSlice C 0 1, zeroSlice C 1 2], [zeroSlice C 2 3]].flatten := by
    simp [EncryptsFrames, zeroSlice, chunkEncryptedSize, blocksPerPacket]
  exact ⟨zeroHeader C 1 0, _, _, completeMessage, [.silence],
    isHonestHeader_zeroHeader C 1, hslices,
    .cons (carriesSlices_message (Or.inl rfl) _ _ hlongest)
      (.cons (carriesSlices_message (Or.inr rfl) _ _ (by decide)) .nil),
    isResponse_completeMessage, rfl⟩

theorem downloadFile_lossless_three :
    ∃ bytes w', wrapOggOpus .dev [List.replicate 160 1, List.replicate 160 2,
        List.replicate 160 3] 1 = .ok bytes ∧
      (downloadFile sampleCiphers .dev .fine 1 zeroKey []).run
        (.connected (threeTransfer sampleCiphers)) = .ok (opusPath [] 1) w' ∧
      w'.disk (opusPath [] 1) = some bytes :=
  downloadFile_lossless sampleCiphers (by decide)
    (sendsRecording_threeTransfer sampleCiphers)

end MicRs
