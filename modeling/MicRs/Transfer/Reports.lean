import MicRs.Transfer.Saved

/-!
# What a download tells its observers

The progress callback hears of every slice, with the bytes received so far and
the size from the header. The two are never compared: a download returns with
whatever arrived before the completion (`downloadFile_received`).
-/

namespace MicRs

variable (C : Ciphers)

/-! ## Progress reports -/

/-- The report on the last of `count` slices. -/
def progressReport (fileId : UInt32) (hdr : FileHeader) (count : ℕ)
    (slice : AudioSlice) : DownloadProgress where
  fileId
  bytesReceived := UInt32.ofNat (160 * count)
  totalBytes := hdr.size
  sequence := slice.sequenceNumber

/-- **One report for each slice**, by induction over the slices, with `count`
slices received before them. -/
theorem acceptAll_reports (fileId : UInt32) (hdr : FileHeader)
    (fileKey : Vector UInt8 32) {slices : List AudioSlice} {s : Transfer × Log}
    (count : ℕ) (hlen : ∀ slice ∈ slices, slice.encryptedChunk.length = 160)
    (hbytes : s.1.bytesReceived = UInt32.ofNat (160 * count)) :
    (acceptAll C fileId hdr fileKey s slices).2.reports = s.2.reports ++
      slices.mapIdx fun i slice =>
        progressReport fileId hdr (count + i + 1) slice := by
  induction slices generalizing s count with
  | nil => simp [acceptAll]
  | cons slice slices ih =>
      have hchunk := hlen slice List.mem_cons_self
      have htotal : s.1.bytesReceived +
          UInt32.ofNat slice.encryptedChunk.length =
          UInt32.ofNat (160 * (count + 1)) := by
        rw [hbytes, hchunk, ← UInt32.ofNat_add, Nat.mul_succ]
      have hrest := ih (s := acceptPure C fileId hdr fileKey s slice) (count + 1)
        (fun slice hslice => hlen slice (List.mem_cons_of_mem _ hslice)) htotal
      rw [acceptAll, List.foldl_cons, ← acceptAll, hrest, List.mapIdx_cons]
      have hreport : (acceptPure C fileId hdr fileKey s slice).2.reports =
          s.2.reports ++ [progressReport fileId hdr (count + 0 + 1) slice] := by
        simp only [acceptPure, Log.accept, htotal]
        rfl
      rw [hreport, List.append_assoc, List.singleton_append]
      simp only [Nat.add_right_comm count, Nat.add_assoc]

theorem transferLog_reports (fileId : UInt32) (hdr : FileHeader)
    (fileKey : Vector UInt8 32) (log : Log) (ds : List Delivery) :
    (transferLog C fileId hdr fileKey log ds).reports = log.reports ++
      (deliveredSlices ds).mapIdx fun i slice =>
        progressReport fileId hdr (i + 1) slice := by
  rw [transferLog, acceptAll_reports C fileId hdr fileKey 0
    (length_chunk_of_delivered ds) rfl]
  simp only [Nat.zero_add]

/-! ## Bytes received -/

/-- Every slice brings 160 bytes. -/
theorem length_receivedFrames (hdr : FileHeader) (fileKey : Vector UInt8 32)
    (ds : List Delivery) :
    (receivedFrames C hdr fileKey ds).flatten.length =
      160 * (deliveredSlices ds).length := by
  have hframe : ∀ slice ∈ deliveredSlices ds,
      (List.length ∘ frameOf C hdr fileKey) slice = 160 := by
    intro slice hslice
    rw [Function.comp_apply, frameOf, length_aes256Ctr]
    exact length_chunk_of_delivered ds slice hslice
  rw [receivedFrames, List.length_flatten, List.map_map,
    List.map_congr_left (g := fun _ => 160) hframe, List.map_const',
    List.sum_replicate, smul_eq_mul, Nat.mul_comm]

/-- **What a returned path says about the size**: a completion arrived, and the
file holds the 160 bytes of every slice that arrived before it, each of them
reported beside the size from the header. How many they are does not matter: a
completion ends every download that can be saved. -/
theorem downloadFile_received {profile : Profile} {env : Env} {fileId : UInt32}
    {sessionKey : Vector UInt8 32} {outputDir : Path} {w : World}
    {data : List UInt8} {rest : List Delivery}
    (harrives : HeaderArrives env w data rest) (h0 : byteAt data 95 = 0) :
    (∀ path w', (downloadFile C profile env fileId sessionKey outputDir).run w =
        .ok path w' →
      sliceClosing rest = some .complete ∧
      (∃ fileKey bytes,
        decryptFileKey C sessionKey (FileHeader.read data).encryptedKey
          (FileHeader.read data).sessionNonce = .ok fileKey ∧
        wrapOggOpus profile (receivedFrames C (.read data) fileKey rest)
          fileId = .ok bytes ∧
        w'.disk path = some bytes ∧
        (receivedFrames C (.read data) fileKey rest).flatten.length =
          160 * (deliveredSlices rest).length) ∧
      w'.log.reports = w.log.reports ++
        (deliveredSlices rest).mapIdx fun i slice =>
          progressReport fileId (.read data) (i + 1) slice) ∧
    ((∃ fileKey, decryptFileKey C sessionKey (FileHeader.read data).encryptedKey
        (FileHeader.read data).sessionNonce = .ok fileKey) →
      sliceClosing rest = some .complete →
      (profile = .release ∨ InRange (deliveredSlices rest)) →
      env.create = none → env.writeAll = none → env.flush = none →
      ∃ path w', (downloadFile C profile env fileId sessionKey outputDir).run w =
        .ok path w') := by
  constructor
  · intro path w' hrun
    obtain ⟨rfl, ⟨data', rest', harrives', h3, rfl⟩ |
      ⟨data', rest', fileKey, bytes, left, hbegins, hsaves, rfl⟩⟩ :=
      downloadFile_ok C hrun
    · have hfirst := harrives.first.symm.trans harrives'.first
      cases hfirst
      rw [h0] at h3
      cases h3
    · have hfirst := harrives.first.symm.trans hbegins.first
      cases hfirst
      exact ⟨hsaves.complete, ⟨fileKey, bytes, hbegins.key, hsaves.wrapped,
        w.afterDownload_file C _ _ _ _ _ _ _, length_receivedFrames C _ _ _⟩,
        transferLog_reports C _ _ _ _ _⟩
  · rintro ⟨fileKey, hkey⟩ hclosing hfits hcreate hwrite hflush
    obtain ⟨bytes, hwrap⟩ := wrapOggOpus_received C fileId hfits
    obtain ⟨rest', hrun⟩ := downloadFile_saves C outputDir
      ⟨harrives, h0, hkey⟩
      ⟨hfits.imp_right (allFit_delivered_iff C rest).mpr, hclosing, hwrap⟩
      hcreate hwrite hflush
    exact ⟨_, _, hrun⟩

/-- A recording without a slice is received, though the header gives it 160
bytes. -/
theorem downloadFile_received_empty :
    (∀ path w', (downloadFile sampleCiphers .dev .fine 1 zeroKey []).run
        (zeroWorld sampleCiphers []) = .ok path w' →
      sliceClosing (sliceTransfer []) = some .complete ∧
      (∃ fileKey bytes, decryptFileKey sampleCiphers zeroKey
          (FileHeader.read (zeroHeader sampleCiphers 1 0)).encryptedKey
          (FileHeader.read (zeroHeader sampleCiphers 1 0)).sessionNonce =
          .ok fileKey ∧
        wrapOggOpus .dev (receivedFrames sampleCiphers
          (.read (zeroHeader sampleCiphers 1 0)) fileKey (sliceTransfer [])) 1 =
          .ok bytes ∧
        w'.disk path = some bytes ∧
        (receivedFrames sampleCiphers (.read (zeroHeader sampleCiphers 1 0))
          fileKey (sliceTransfer [])).flatten.length =
          160 * (deliveredSlices (sliceTransfer [])).length) ∧
      w'.log.reports = (zeroWorld sampleCiphers []).log.reports ++
        (deliveredSlices (sliceTransfer [])).mapIdx fun i slice =>
          progressReport 1 (.read (zeroHeader sampleCiphers 1 0)) (i + 1)
            slice) ∧
    ∃ path w', (downloadFile sampleCiphers .dev .fine 1 zeroKey []).run
      (zeroWorld sampleCiphers []) = .ok path w' := by
  have hbegins := zeroWorld_begins sampleCiphers []
  obtain ⟨hslices, hclosing⟩ := sliceTransfer_delivers []
  obtain ⟨hreceived, hreturns⟩ := downloadFile_received sampleCiphers
    hbegins.toHeaderArrives hbegins.code
  refine ⟨hreceived, hreturns ⟨_, hbegins.key⟩ hclosing (Or.inr ?_) rfl rfl rfl⟩
  rw [hslices]
  exact ⟨by simp, by simp⟩

/-- A download that returns has received the bytes that the header gave. -/
def TruncationNoticed : Prop :=
  ∀ (profile : Profile) (env : Env) (fileId : UInt32)
    (sessionKey fileKey : Vector UInt8 32) (outputDir path : Path)
    (w w' : World) (data : List UInt8) (rest : List Delivery),
  Begins C env sessionKey w data rest fileKey →
  (downloadFile C profile env fileId sessionKey outputDir).run w =
    .ok path w' →
  (FileHeader.read data).size.toNat ≤
    (receivedFrames C (.read data) fileKey rest).flatten.length

theorem zeroHeader_size :
    (FileHeader.read (zeroHeader C 1 0)).size = 160 :=
  headerMessage_size C _ _ _ _ _ _ _

/-- **A recording of which nothing arrived is returned**, whatever the ciphers
are. -/
theorem downloadFile_truncated : ¬ ∃ C : Ciphers, TruncationNoticed C := by
  rintro ⟨C, hclaim⟩
  have hbegins := zeroWorld_begins C []
  obtain ⟨hslices, hclosing⟩ := sliceTransfer_delivers []
  obtain ⟨bytes, w', -, hrun, -⟩ := downloadFile_delivers C .release 1 []
    hbegins hclosing (Or.inl rfl)
  have hsize := hclaim .release .fine 1 zeroKey zeroKey [] _ _ w' _ _ hbegins
    hrun
  rw [zeroHeader_size, length_receivedFrames, hslices] at hsize
  exact absurd hsize (by decide)

end MicRs
