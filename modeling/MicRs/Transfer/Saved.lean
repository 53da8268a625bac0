import MicRs.Ogg.Demux
import MicRs.Transfer.Overflow

/-!
# What a download leaves on disk

The file holds one frame for each slice delivered, in the order of delivery
(`downloadFile_delivers`): the grouping into messages does not matter
(`downloadFile_sameSlices`), the order does (`downloadFile_reordered`). When a
download returns, the file is there unless the device answered with code 3
(`downloadFile_saved`).
-/

namespace MicRs

variable (C : Ciphers)

/-- Frames received in range fit into a stream, as do all in a build without
overflow checks. -/
theorem wrapOggOpus_received {profile : Profile} (fileId : UInt32)
    {hdr : FileHeader} {fileKey : Vector UInt8 32} {ds : List Delivery}
    (hfits : profile = .release ∨ InRange (deliveredSlices ds)) :
    ∃ bytes, wrapOggOpus profile (receivedFrames C hdr fileKey ds) fileId =
      .ok bytes := by
  rcases hfits with rfl | hrange
  · exact wrapOggOpus_release _ fileId
  · apply wrapOggOpus_of_inRange
    rw [receivedFrames, List.length_map]
    exact hrange.count

/-- **A download that is complete saves the frames of the slices delivered**,
in the order of their delivery. -/
theorem downloadFile_delivers (profile : Profile) (fileId : UInt32)
    {sessionKey fileKey : Vector UInt8 32} (outputDir : Path) {w : World}
    {data : List UInt8} {rest : List Delivery}
    (hbegins : Begins C .fine sessionKey w data rest fileKey)
    (hclosing : sliceClosing rest = some .complete)
    (hfits : profile = .release ∨ InRange (deliveredSlices rest)) :
    ∃ bytes w', wrapOggOpus profile (receivedFrames C (.read data) fileKey rest)
        fileId = .ok bytes ∧
      (downloadFile C profile .fine fileId sessionKey outputDir).run w =
        .ok (opusPath outputDir fileId) w' ∧
      w'.disk (opusPath outputDir fileId) = some bytes := by
  obtain ⟨bytes, hwrap⟩ : ∃ bytes, wrapOggOpus profile
      (receivedFrames C (.read data) fileKey rest) fileId = .ok bytes :=
    wrapOggOpus_received C fileId hfits
  obtain ⟨rest', hrun⟩ := downloadFile_saves C outputDir hbegins
    ⟨hfits.imp_right (allFit_delivered_iff C rest).mpr, hclosing, hwrap⟩
    rfl rfl rfl
  exact ⟨bytes, _, hwrap, hrun, w.afterDownload_file C _ _ _ _ _ _ _⟩

/-! ## Order and grouping -/

/-- **The file depends on the slices delivered and their order only**: two
downloads behind the same header that are sent the same slices in the same
order, in whatever messages, save the same bytes, one frame for each slice. -/
theorem downloadFile_sameSlices {profile : Profile} {fileId : UInt32}
    {sessionKey fileKey : Vector UInt8 32} {outputDir : Path} {w₁ w₂ : World}
    {data : List UInt8} {rest₁ rest₂ : List Delivery} {slices : List AudioSlice}
    (hbegins₁ : Begins C .fine sessionKey w₁ data rest₁ fileKey)
    (hbegins₂ : Begins C .fine sessionKey w₂ data rest₂ fileKey)
    (hslices₁ : deliveredSlices rest₁ = slices)
    (hslices₂ : deliveredSlices rest₂ = slices)
    (hclosing₁ : sliceClosing rest₁ = some .complete)
    (hclosing₂ : sliceClosing rest₂ = some .complete)
    (hfits : profile = .release ∨ InRange slices) :
    ∃ bytes w₁' w₂',
      (downloadFile C profile .fine fileId sessionKey outputDir).run w₁ =
        .ok (opusPath outputDir fileId) w₁' ∧
      (downloadFile C profile .fine fileId sessionKey outputDir).run w₂ =
        .ok (opusPath outputDir fileId) w₂' ∧
      w₁'.disk (opusPath outputDir fileId) = some bytes ∧
      w₂'.disk (opusPath outputDir fileId) = some bytes ∧
      wrapOggOpus profile (slices.map (frameOf C (.read data) fileKey))
        fileId = .ok bytes := by
  subst hslices₁
  obtain ⟨bytes, w₁', hwrap₁, hrun₁, hdisk₁⟩ := downloadFile_delivers C
    profile fileId outputDir hbegins₁ hclosing₁ hfits
  rw [← hslices₂] at hfits
  obtain ⟨bytes', w₂', hwrap₂, hrun₂, hdisk₂⟩ := downloadFile_delivers C
    profile fileId outputDir hbegins₂ hclosing₂ hfits
  rw [receivedFrames] at hwrap₁
  rw [receivedFrames, hslices₂, hwrap₁] at hwrap₂
  cases hwrap₂
  exact ⟨bytes, w₁', w₂', hrun₁, hrun₂, hdisk₁, hdisk₂, hwrap₁⟩

/-- Two slices in one message or in two. -/
theorem downloadFile_sameSlices_split :
    ∃ bytes w₁' w₂',
      (downloadFile sampleCiphers .dev .fine 1 zeroKey []).run
        (zeroWorld sampleCiphers
          [[zeroSlice sampleCiphers 0 1, zeroSlice sampleCiphers 1 2]]) =
        .ok (opusPath [] 1) w₁' ∧
      (downloadFile sampleCiphers .dev .fine 1 zeroKey []).run
        (zeroWorld sampleCiphers
          [[zeroSlice sampleCiphers 0 1], [zeroSlice sampleCiphers 1 2]]) =
        .ok (opusPath [] 1) w₂' ∧
      w₁'.disk (opusPath [] 1) = some bytes ∧
      w₂'.disk (opusPath [] 1) = some bytes ∧
      wrapOggOpus .dev
        ([(zeroSlice sampleCiphers 0 1).parsed,
          (zeroSlice sampleCiphers 1 2).parsed].map
          (frameOf sampleCiphers (.read (zeroHeader sampleCiphers 1 0))
            zeroKey)) 1 = .ok bytes :=
  downloadFile_sameSlices sampleCiphers (zeroWorld_begins sampleCiphers _)
    (zeroWorld_begins sampleCiphers _) (sliceTransfer_delivers _).1
    (sliceTransfer_delivers _).1 (sliceTransfer_delivers _).2
    (sliceTransfer_delivers _).2 (Or.inr ⟨by decide, by decide⟩)

/-- Downloads behind the same header that are sent the same slices, with
distinct sequence numbers and each at least once, save the same bytes. -/
def OrderIrrelevant : Prop :=
  ∀ (profile : Profile) (fileId : UInt32) (sessionKey fileKey : Vector UInt8 32)
    (outputDir : Path) (w₁ w₂ w₁' w₂' : World) (data : List UInt8)
    (rest₁ rest₂ : List Delivery) (slices : List AudioSlice),
  Begins C .fine sessionKey w₁ data rest₁ fileKey →
  Begins C .fine sessionKey w₂ data rest₂ fileKey →
  (slices.map AudioSlice.sequenceNumber).Nodup →
  (∀ slice ∈ slices, 10 * slice.sequenceNumber.toNat < 2 ^ 32) →
  (∀ slice, slice ∈ deliveredSlices rest₁ ↔ slice ∈ slices) →
  (∀ slice, slice ∈ deliveredSlices rest₂ ↔ slice ∈ slices) →
  sliceClosing rest₁ = some .complete → sliceClosing rest₂ = some .complete →
  (downloadFile C profile .fine fileId sessionKey outputDir).run w₁ =
    .ok (opusPath outputDir fileId) w₁' →
  (downloadFile C profile .fine fileId sessionKey outputDir).run w₂ =
    .ok (opusPath outputDir fileId) w₂' →
  w₁'.disk (opusPath outputDir fileId) = w₂'.disk (opusPath outputDir fileId)

/-- The frames of two slices, in the order of their delivery. -/
theorem receivedFrames_zeroSlices (m n : UInt32) (a b : UInt8) :
    receivedFrames C (.read (zeroHeader C 1 0)) zeroKey
      (sliceTransfer [[zeroSlice C m a, zeroSlice C n b]]) =
      [List.replicate chunkEncryptedSize a,
        List.replicate chunkEncryptedSize b] := by
  rw [receivedFrames, (sliceTransfer_delivers _).1]
  simp only [List.flatten_cons, List.flatten_nil, List.append_nil,
    List.map_cons, List.map_nil, frameOf_zeroSlice]

theorem downloadFile_zeroSlices {m n : UInt32} (a b : UInt8)
    (hm : m.toNat ≤ 1) (hn : n.toNat ≤ 1) :
    ∃ bytes w', wrapOggOpus .dev [List.replicate chunkEncryptedSize a,
        List.replicate chunkEncryptedSize b] 1 = .ok bytes ∧
      (downloadFile C .dev .fine 1 zeroKey []).run
        (zeroWorld C [[zeroSlice C m a, zeroSlice C n b]]) =
        .ok (opusPath [] 1) w' ∧
      w'.disk (opusPath [] 1) = some bytes := by
  obtain ⟨hslices, hclosing⟩ :=
    sliceTransfer_delivers [[zeroSlice C m a, zeroSlice C n b]]
  rw [← receivedFrames_zeroSlices C m n a b]
  refine downloadFile_delivers C _ _ _ (zeroWorld_begins C _) hclosing (Or.inr ?_)
  rw [hslices]
  refine ⟨fun slice hslice => ?_, by simp⟩
  simp only [List.flatten_cons, List.flatten_nil, List.append_nil,
    List.map_cons, List.map_nil, List.mem_cons, List.not_mem_nil,
    or_false] at hslice
  rcases hslice with rfl | rfl
  · exact hm.trans (by decide)
  · exact hn.trans (by decide)

/-- **The order of delivery shows in the file**: slices 0 and 1 in either order
make two different files, whatever the ciphers are. -/
theorem downloadFile_reordered : ¬ ∃ C : Ciphers, OrderIrrelevant C := by
  rintro ⟨C, hclaim⟩
  set s := zeroSlice C 0 1
  set t := zeroSlice C 1 2
  obtain ⟨bytes₁, w₁', hwrap₁, hrun₁, hdisk₁⟩ :=
    downloadFile_zeroSlices C (m := 0) (n := 1) 1 2 (by decide) (by decide)
  obtain ⟨bytes₂, w₂', hwrap₂, hrun₂, hdisk₂⟩ :=
    downloadFile_zeroSlices C (m := 1) (n := 0) 2 1 (by decide) (by decide)
  have hnodup : ([s.parsed, t.parsed].map AudioSlice.sequenceNumber).Nodup := by
    show ([0, 1] : List UInt32).Nodup
    decide
  have hcounter : ∀ slice ∈ [s.parsed, t.parsed],
      10 * slice.sequenceNumber.toNat < 2 ^ 32 := by
    simp only [List.forall_mem_cons, List.not_mem_nil, false_imp_iff,
      implies_true, and_true]
    show 10 * (0 : UInt32).toNat < 2 ^ 32 ∧ 10 * (1 : UInt32).toNat < 2 ^ 32
    decide
  have hst : ∀ slice, slice ∈ deliveredSlices (sliceTransfer [[s, t]]) ↔
      slice ∈ [s.parsed, t.parsed] := by
    simp [(sliceTransfer_delivers [[s, t]]).1]
  have hts : ∀ slice, slice ∈ deliveredSlices (sliceTransfer [[t, s]]) ↔
      slice ∈ [s.parsed, t.parsed] := by
    simp [(sliceTransfer_delivers [[t, s]]).1, or_comm]
  have hsame := hclaim .dev 1 zeroKey zeroKey [] _ _ w₁' w₂' _ _ _ _
    (zeroWorld_begins C [[s, t]]) (zeroWorld_begins C [[t, s]]) hnodup hcounter
    hst hts (sliceTransfer_delivers _).2 (sliceTransfer_delivers _).2 hrun₁ hrun₂
  rw [hdisk₁, hdisk₂] at hsame
  cases hsame
  have hsize : ∀ a b : UInt8, ∀ frame ∈ [List.replicate chunkEncryptedSize a,
      List.replicate chunkEncryptedSize b], frame.length ≤ 6374 := by
    intro a b frame hframe
    rw [List.mem_pair] at hframe
    rcases hframe with rfl | rfl <;> rw [List.length_replicate] <;> decide
  have hframes := wrapOggOpus_injective (by simp [pageCount, framesPerPage])
    (by simp [pageCount, framesPerPage]) (hsize 1 2) (hsize 2 1) hwrap₁ hwrap₂
  have hbyte := (List.replicate_right_inj (by decide)).mp
    (List.cons.inj hframes).1
  revert hbyte
  decide

/-! ## What `Ok` says -/

/-- **What a returned path says about the disk**: with code 0 in the header the
file is there, with the whole stream of the frames received in this run; with
code 3 the disk is as it was. No other code returns. -/
theorem downloadFile_saved {profile : Profile} {env : Env} {fileId : UInt32}
    {sessionKey : Vector UInt8 32} {outputDir path : Path} {w w' : World}
    (h : (downloadFile C profile env fileId sessionKey outputDir).run w =
      .ok path w') :
    path = opusPath outputDir fileId ∧
      ∃ data rest, HeaderArrives env w data rest ∧
        ((byteAt data 95 = 3 ∧ w'.disk = w.disk) ∨
          (byteAt data 95 = 0 ∧ ∃ fileKey bytes,
            Begins C env sessionKey w data rest fileKey ∧
            wrapOggOpus profile (receivedFrames C (.read data) fileKey rest)
              fileId = .ok bytes ∧
            w'.disk path = some bytes)) := by
  obtain ⟨rfl, ⟨data, rest, harrives, h3, rfl⟩ |
    ⟨data, rest, fileKey, bytes, rest', hbegins, hsaves, rfl⟩⟩ :=
    downloadFile_ok C h
  · exact ⟨rfl, data, rest, harrives, Or.inl ⟨h3, rfl⟩⟩
  · exact ⟨rfl, data, rest, hbegins.toHeaderArrives, Or.inr ⟨hbegins.code,
      fileKey, bytes, hbegins, hsaves.wrapped,
      w.afterDownload_file C _ _ _ _ _ _ _⟩⟩

/-- A recording of two slices is saved. -/
theorem downloadFile_saved_two :
    let w := zeroWorld sampleCiphers
      [[zeroSlice sampleCiphers 0 1], [zeroSlice sampleCiphers 1 2]]
    ∃ w', (downloadFile sampleCiphers .dev .fine 1 zeroKey []).run w =
        .ok (opusPath [] 1) w' ∧
      opusPath [] 1 = opusPath [] 1 ∧
      ∃ data rest, HeaderArrives .fine w data rest ∧
        ((byteAt data 95 = 3 ∧ w'.disk = w.disk) ∨
          (byteAt data 95 = 0 ∧ ∃ fileKey bytes,
            Begins sampleCiphers .fine zeroKey w data rest fileKey ∧
            wrapOggOpus .dev
              (receivedFrames sampleCiphers (.read data) fileKey rest) 1 =
              .ok bytes ∧
            w'.disk (opusPath [] 1) = some bytes)) := by
  obtain ⟨hslices, hclosing⟩ := sliceTransfer_delivers
    [[zeroSlice sampleCiphers 0 1], [zeroSlice sampleCiphers 1 2]]
  obtain ⟨bytes, w', -, hrun, -⟩ := downloadFile_delivers sampleCiphers
    .dev 1 [] (zeroWorld_begins sampleCiphers _) hclosing
    (Or.inr (by rw [hslices]; exact ⟨by decide, by decide⟩))
  exact ⟨w', hrun, downloadFile_saved sampleCiphers hrun⟩

/-- Every returned path is that of a file. -/
def OkMeansSaved : Prop :=
  ∀ (profile : Profile) (env : Env) (fileId : UInt32)
    (sessionKey : Vector UInt8 32) (outputDir path : Path) (w w' : World),
  (downloadFile C profile env fileId sessionKey outputDir).run w =
    .ok path w' →
  ∃ bytes, w'.disk path = some bytes

/-- **Code 3 returns a path without a file**, whatever the ciphers are. -/
theorem downloadFile_alreadyComplete : ¬ ∃ C : Ciphers, OkMeansSaved C := by
  rintro ⟨C, hclaim⟩
  have harrives : HeaderArrives .fine
      (.connected [.notification (zeroHeader C 1 3)]) (zeroHeader C 1 3) [] :=
    ⟨rfl, if_pos (isResponse_headerMessage C _ _ _ _ _ _ _),
      isFileHeader_headerMessage C _ _ _ _ _ _ _⟩
  have hrun := downloadFile_complete C 1 zeroKey [] harrives
    (headerMessage_code C _ _ _ _ _ _ _) .dev
  obtain ⟨bytes, hbytes⟩ := hclaim _ _ _ _ _ _ _ _ hrun
  cases hbytes

end MicRs
