import MicRs.Base.Ogg
import MicRs.Ogg.Checksum

/-!
# The Ogg writer

`ogg_page` writes the encoding of a page (`oggPage_eq`), and `wrap_ogg_opus`
the encodings of the pages of a stream (`wrapOggOpus_eq`): a page for the
head, one for the tags, then one for every ten frames.
-/

namespace MicRs

open Endian Ogg

/-! ## One page -/

theorem lacingValues_eq (n : ℕ) : lacingValues n = laces n := by
  induction n using Nat.strong_induction_on with
  | h n ih =>
      rcases Nat.lt_or_ge n 255 with hlt | hge
      · rw [lacingValues, if_neg (by omega), laces_of_lt hlt]
      · rw [lacingValues, if_pos hge, laces_of_ge hge, ih _ (by omega)]

/-- The page `ogg_page` writes: whole packets, one after the other. -/
def packetPage (serial pageNo : UInt32) (granule : UInt64) (flags : UInt8)
    (packets : List (List UInt8)) : Page where
  flags := flags.toNat
  granule := granule.toNat
  serial := serial.toNat
  sequence := pageNo.toNat
  lacing := packets.flatMap fun packet => laces packet.length
  body := packets.flatten

section OnePage

variable (serial pageNo : UInt32) (granule : UInt64) (flags : UInt8)
  (packets : List (List UInt8))

theorem oggPageBlank_eq : oggPageBlank serial pageNo granule flags packets =
    (packetPage serial pageNo granule flags packets).front ++ [0, 0, 0, 0] ++
      (packetPage serial pageNo granule flags packets).back := by
  simp [oggPageBlank, packetPage, Page.front, Page.back, oggCapture, capture,
    lacingValues_eq, leBytes, u64ToLeBytes, u32ToLeBytes]

/-- The checksum stands between the front of a page and its back. -/
theorem oggPage_split : oggPage serial pageNo granule flags packets =
    (packetPage serial pageNo granule flags packets).front ++
      u32ToLeBytes (oggCrc32 (oggPageBlank serial pageNo granule flags packets)) ++
      (packetPage serial pageNo granule flags packets).back := by
  have hblank := oggPageBlank_eq serial pageNo granule flags packets
  have hcut : (oggPageBlank serial pageNo granule flags packets).take 22 =
      (packetPage serial pageNo granule flags packets).front := by
    rw [hblank, List.append_assoc, List.take_left' (Page.length_front _)]
  have hrest : (oggPageBlank serial pageNo granule flags packets).drop 26 =
      (packetPage serial pageNo granule flags packets).back := by
    rw [hblank]
    exact List.drop_left' (by simp)
  rw [oggPage, patch, length_u32ToLeBytes, hcut, hrest]

/-- **`ogg_page` encodes its page**, checksum included. -/
theorem oggPage_eq : oggPage serial pageNo granule flags packets =
    (packetPage serial pageNo granule flags packets).encode
      oggCrcReference := by
  rw [oggPage_split, Page.encode, u32ToLeBytes, oggCrc32_eq, oggPageBlank_eq]

end OnePage

/-- A page with at most 255 lacing values is valid. -/
theorem packetPage_valid (serial pageNo : UInt32) (granule : UInt64)
    (flags : UInt8) {packets : List (List UInt8)}
    (h : (packets.flatMap fun packet => laces packet.length).length < 256) :
    (packetPage serial pageNo granule flags packets).Valid where
  flags := flags.toNat_lt
  granule := granule.toNat_lt
  serial := serial.toNat_lt
  sequence := pageNo.toNat_lt
  lacing := h
  body := bodyLength_whole packets

@[simp] theorem packetPage_packets (serial pageNo : UInt32) (granule : UInt64)
    (flags : UInt8) (packets : List (List UInt8)) :
    (packetPage serial pageNo granule flags packets).packets = packets := by
  rw [Page.packets, packetPage, lacePackets_whole]

/-- Ten packets of up to 6374 bytes take at most 250 lacing values. -/
theorem length_laces_le {packets : List (List UInt8)}
    (h : ∀ packet ∈ packets, packet.length ≤ 6374) :
    (packets.flatMap fun packet => laces packet.length).length ≤
      25 * packets.length := by
  induction packets with
  | nil => simp
  | cons packet packets ih =>
      have hone := h packet List.mem_cons_self
      have hrest := ih fun p hp => h p (List.mem_cons_of_mem _ hp)
      rw [List.flatMap_cons, List.length_append, length_laces,
        List.length_cons]
      omega

/-! ## The stream -/

/-- The number of audio pages. -/
def pageCount (frames : List (List UInt8)) : ℕ :=
  (frames.length + framesPerPage - 1) / framesPerPage

/-- The frames of audio page `k`. -/
def pageFrames (frames : List (List UInt8)) (k : ℕ) : List (List UInt8) :=
  (frames.drop (k * framesPerPage)).take framesPerPage

/-- The samples up to and with audio page `k - 1`. -/
def samplesBefore (frames : List (List UInt8)) (k : ℕ) : ℕ :=
  960 * min (10 * k) frames.length

def audioPage (serial : UInt32) (frames : List (List UInt8)) (k : ℕ) : Page :=
  packetPage serial (UInt32.ofNat (k + 2))
    (UInt64.ofNat (samplesBefore frames (k + 1)))
    (if pageCount frames ≤ k + 1 then oggEos else 0) (pageFrames frames k)

/-- The two pages before the audio. -/
def headPages (serial : UInt32) : List Page :=
  [packetPage serial 0 0 oggBos [opusHead], packetPage serial 1 0 0 [opusTags]]

/-- Every page of a recording. -/
def streamPages (serial : UInt32) (frames : List (List UInt8)) : List Page :=
  headPages serial ++
    (List.range (pageCount frames)).map (audioPage serial frames)

/-- The index of audio page `k` as the writer computes it: in 64 bits, from a
page number of 32. -/
def pageIndex (k : ℕ) : UInt64 := (UInt32.ofNat (k + 2)).toUInt64 - 2 + 1

/-- The flags the writer gives audio page `k`. -/
def pageFlags (frames : List (List UInt8)) (k : ℕ) : UInt8 :=
  if pageCount frames ≤ (pageIndex k).toNat then oggEos else 0

/-- Audio page `k` as it is written, also where the page number wraps. -/
def writtenPage (serial : UInt32) (frames : List (List UInt8)) (k : ℕ) : Page :=
  packetPage serial (UInt32.ofNat (k + 2))
    (UInt64.ofNat (samplesBefore frames (k + 1))) (pageFlags frames k)
    (pageFrames frames k)

def writtenPages (serial : UInt32) (frames : List (List UInt8)) : List Page :=
  headPages serial ++
    (List.range (pageCount frames)).map (writtenPage serial frames)

/-- What the loop over chunks carries before audio page `k`. -/
noncomputable def streamState (serial : UInt32) (frames : List (List UInt8))
    (k : ℕ) : StreamState where
  out := (headPages serial ++
    (List.range k).map (writtenPage serial frames)).flatMap
    (Page.encode oggCrcReference)
  pageNo := UInt32.ofNat (k + 2)
  granule := UInt64.ofNat (samplesBefore frames k)

theorem length_pageFrames (frames : List (List UInt8)) (k : ℕ) :
    (pageFrames frames k).length = min 10 (frames.length - k * 10) := by
  simp [pageFrames, framesPerPage]

theorem samplesBefore_succ (frames : List (List UInt8)) (k : ℕ) :
    samplesBefore frames k + (pageFrames frames k).length * 960 =
      samplesBefore frames (k + 1) := by
  rw [samplesBefore, samplesBefore, length_pageFrames]
  omega

theorem toNat_pageIndex (k : ℕ) :
    (pageIndex k).toNat = ((k + 2) % 2 ^ 32 + (2 ^ 64 - 1)) % 2 ^ 64 := by
  have htwo : (2 : UInt64).toNat = 2 := rfl
  have hone : (1 : UInt64).toNat = 1 := rfl
  rw [pageIndex, UInt64.toNat_add, UInt64.toNat_sub, UInt32.toNat_toUInt64,
    UInt32.toNat_ofNat', htwo, hone]
  omega

/-- The two steps of the computation of the index. -/
theorem pageIndex_computed {profile : Profile} {k : ℕ}
    (h : profile = .release ∨ k + 2 < 2 ^ 32) :
    subU64 profile (UInt32.ofNat (k + 2)).toUInt64 2 =
        .ok ((UInt32.ofNat (k + 2)).toUInt64 - 2) ∧
      addU64 profile ((UInt32.ofNat (k + 2)).toUInt64 - 2) 1 =
        .ok (pageIndex k) := by
  rcases h with rfl | hk
  · exact ⟨rfl, rfl⟩
  · have hwide : (UInt32.ofNat (k + 2)).toUInt64.toNat = k + 2 := by
      rw [UInt32.toNat_toUInt64, UInt32.toNat_ofNat']
      omega
    have htwo : (2 : UInt64) ≤ (UInt32.ofNat (k + 2)).toUInt64 := by
      rw [UInt64.le_iff_toNat_le, hwide]
      exact Nat.le_add_left 2 k
    constructor
    · apply arith_of_fits
      exact UInt64.le_iff_toNat_le.mp htwo
    · apply arith_of_fits
      rw [UInt64.toNat_sub_of_le _ _ htwo, hwide]
      show k + 2 - 2 + 1 < 2 ^ 64
      omega

/-- Up to page number 2^32 - 1 the pages are written as meant. -/
theorem writtenPage_eq (serial : UInt32) (frames : List (List UInt8)) {k : ℕ}
    (hk : k + 2 < 2 ^ 32) :
    writtenPage serial frames k = audioPage serial frames k := by
  have hindex : (pageIndex k).toNat = k + 1 := by
    rw [toNat_pageIndex]
    omega
  rw [writtenPage, pageFlags, hindex, audioPage]

theorem writtenPages_eq {serial : UInt32} {frames : List (List UInt8)}
    (hpages : pageCount frames + 1 < 2 ^ 32) :
    writtenPages serial frames = streamPages serial frames := by
  rw [writtenPages, streamPages]
  congr 1
  apply List.map_congr_left
  intro k hk
  have hlt := List.mem_range.mp hk
  exact writtenPage_eq serial frames (by omega)

/-- A round up to its last step, the increment of the page number. -/
theorem writeChunk_round {profile : Profile} (serial : UInt32)
    (frames : List (List UInt8)) {k : ℕ}
    (h : profile = .release ∨ k + 2 < 2 ^ 32) :
    writeChunk profile serial frames.length (streamState serial frames k)
      (pageFrames frames k) = (do
        let pageNo ← addU32 profile (UInt32.ofNat (k + 2)) 1
        return {
          out := (streamState serial frames (k + 1)).out, pageNo
          granule := UInt64.ofNat (samplesBefore frames (k + 1)) }) := by
  have hlen : (pageFrames frames k).length ≤ 10 := by
    rw [length_pageFrames]
    omega
  -- The machine operations of a round.
  have hsamples : mulU64 profile (UInt64.ofNat (pageFrames frames k).length)
      samplesPerFrame =
      .ok (UInt64.ofNat ((pageFrames frames k).length * 960)) :=
    mulU64_ofNat profile (b := 960) (by omega) (by norm_num) (by omega)
  have hgranule : addU64 profile (UInt64.ofNat (samplesBefore frames k))
      (UInt64.ofNat ((pageFrames frames k).length * 960)) =
      .ok (UInt64.ofNat (samplesBefore frames (k + 1))) := by
    rw [← samplesBefore_succ]
    apply addU64_ofNat profile
    refine h.imp_right fun hk => ?_
    rw [samplesBefore]
    omega
  obtain ⟨hsub, hadd⟩ := pageIndex_computed h
  -- The page that is appended is the next one of the stream.
  have hout : (streamState serial frames k).out ++
      oggPage serial (UInt32.ofNat (k + 2))
        (UInt64.ofNat (samplesBefore frames (k + 1))) (pageFlags frames k)
        (pageFrames frames k) = (streamState serial frames (k + 1)).out := by
    rw [oggPage_eq]
    simp [streamState, writtenPage, List.range_succ]
  rw [← hout, writeChunk, hsamples]
  simp only [bind, Except.bind, streamState, hgranule, hsub, hadd]
  rfl

/-- **One round of the loop over chunks** writes the next audio page, unless
the page number overflows. -/
theorem writeChunk_streamState {profile : Profile} (serial : UInt32)
    (frames : List (List UInt8)) {k : ℕ}
    (h : profile = .release ∨ k + 3 < 2 ^ 32) :
    writeChunk profile serial frames.length (streamState serial frames k)
      (pageFrames frames k) = .ok (streamState serial frames (k + 1)) := by
  have hpageNo : addU32 profile (UInt32.ofNat (k + 2)) 1 =
      .ok (UInt32.ofNat (k + 1 + 2)) :=
    addU32_ofNat profile (a := k + 2) (b := 1) (h.imp_right fun hk => by omega)
  rw [writeChunk_round serial frames (h.imp_right fun hk => by omega), hpageNo]
  rfl

/-- The round at which the page number overflows. -/
theorem writeChunk_panic (serial : UInt32) (frames : List (List UInt8)) :
    writeChunk .dev serial frames.length
      (streamState serial frames (2 ^ 32 - 3)) (pageFrames frames (2 ^ 32 - 3)) =
      .error .overflow := by
  rw [writeChunk_round serial frames (Or.inr (by norm_num))]
  rfl

theorem streamState_zero (serial : UInt32) (frames : List (List UInt8)) :
    (⟨oggPage serial 0 0 oggBos [opusHead] ++ oggPage serial 1 0 0 [opusTags],
      2, 0⟩ : StreamState) = streamState serial frames 0 := by
  simp [streamState, headPages, oggPage_eq, samplesBefore]

/-- The writer as a loop over the indices of the audio pages. -/
theorem wrapOggOpus_loop (profile : Profile) (serial : UInt32)
    (frames : List (List UInt8)) :
    wrapOggOpus profile frames serial = (do
      let st ← ((List.range (pageCount frames)).map (pageFrames frames)).foldlM
        (writeChunk profile serial frames.length) (streamState serial frames 0)
      return st.out) := by
  rw [wrapOggOpus, streamState_zero serial frames]
  rfl

/-- **`wrap_ogg_opus` writes these pages**, for a recording of any length in a
build without overflow checks. -/
theorem wrapOggOpus_written {profile : Profile} {serial : UInt32}
    {frames : List (List UInt8)}
    (h : profile = .release ∨ pageCount frames + 2 < 2 ^ 32) :
    wrapOggOpus profile frames serial =
      .ok ((writtenPages serial frames).flatMap
        (Page.encode oggCrcReference)) := by
  have hloop : ((List.range (pageCount frames)).map (pageFrames frames)).foldlM
      (writeChunk profile serial frames.length) (streamState serial frames 0) =
      .ok (streamState serial frames (pageCount frames)) :=
    foldlM_of_states (pageCount frames) fun k hk =>
      writeChunk_streamState serial frames (h.imp_right fun hpages => by omega)
  rw [wrapOggOpus_loop, hloop]
  rfl

/-- **`wrap_ogg_opus` writes the pages of the stream.** -/
theorem wrapOggOpus_eq {profile : Profile} {serial : UInt32}
    {frames : List (List UInt8)} (hpages : pageCount frames + 1 < 2 ^ 32)
    (hlast : profile = .release ∨ pageCount frames + 2 < 2 ^ 32) :
    wrapOggOpus profile frames serial =
      .ok ((streamPages serial frames).flatMap
        (Page.encode oggCrcReference)) := by
  rw [wrapOggOpus_written hlast, writtenPages_eq hpages]

/-- With overflow checks a recording of 2^32 pages is not written. -/
theorem wrapOggOpus_panic (serial : UInt32) {frames : List (List UInt8)}
    (h : 2 ^ 32 ≤ pageCount frames + 2) :
    wrapOggOpus .dev frames serial = .error .overflow := by
  have hloop : ((List.range (pageCount frames)).map (pageFrames frames)).foldlM
      (writeChunk .dev serial frames.length) (streamState serial frames 0) =
      .error .overflow :=
    foldlM_error_of_states (show 2 ^ 32 - 3 < pageCount frames by omega)
      (fun k hk => writeChunk_streamState serial frames (Or.inr (by omega)))
      (writeChunk_panic serial frames)
  rw [wrapOggOpus_loop, hloop]
  rfl

/-! ## Builds -/

/-- Without overflow checks the writer always returns. -/
theorem wrapOggOpus_release (frames : List (List UInt8)) (serial : UInt32) :
    ∃ bytes, wrapOggOpus .release frames serial = .ok bytes := by
  obtain ⟨st, hst⟩ := foldlM_total (fun st chunk => ⟨_, rfl⟩)
    (f := writeChunk .release serial frames.length)
    (chunks framesPerPage frames)
    { out := oggPage serial 0 0 oggBos [opusHead] ++
        oggPage serial 1 0 0 [opusTags]
      pageNo := 2, granule := 0 }
  exact ⟨st.out, by rw [wrapOggOpus, hst]; rfl⟩

theorem writeChunk_release_of_ok {profile : Profile} {serial : UInt32}
    {frameCount : ℕ} (st : StreamState) (chunk : List (List UInt8))
    (st' : StreamState)
    (h : writeChunk profile serial frameCount st chunk = .ok st') :
    writeChunk .release serial frameCount st chunk = .ok st' := by
  rw [writeChunk] at h ⊢
  obtain ⟨samples, hsamples, h⟩ := bind_eq_ok.mp h
  obtain ⟨granule, hgranule, h⟩ := bind_eq_ok.mp h
  obtain ⟨index, hindex, h⟩ := bind_eq_ok.mp h
  obtain ⟨next, hnext, h⟩ := bind_eq_ok.mp h
  obtain ⟨pageNo, hpageNo, h⟩ := bind_eq_ok.mp h
  exact bind_eq_ok.mpr ⟨samples, mulU64_release_of_ok hsamples,
    bind_eq_ok.mpr ⟨granule, addU64_release_of_ok hgranule,
      bind_eq_ok.mpr ⟨index, subU64_release_of_ok hindex,
        bind_eq_ok.mpr ⟨next, addU64_release_of_ok hnext,
          bind_eq_ok.mpr ⟨pageNo, addU32_release_of_ok hpageNo, h⟩⟩⟩⟩⟩

/-- Where a build with overflow checks returns, one without returns the same
bytes. -/
theorem wrapOggOpus_release_of_ok {profile : Profile}
    {frames : List (List UInt8)} {serial : UInt32} {bytes : List UInt8}
    (h : wrapOggOpus profile frames serial = .ok bytes) :
    wrapOggOpus .release frames serial = .ok bytes := by
  simp only [wrapOggOpus] at h ⊢
  rcases hloop : (chunks framesPerPage frames).foldlM
      (writeChunk profile serial frames.length)
      { out := oggPage serial 0 0 oggBos [opusHead] ++
          oggPage serial 1 0 0 [opusTags]
        pageNo := 2, granule := 0 } with e | st
  · rw [hloop] at h
    cases h
  · rw [foldlM_of_ok writeChunk_release_of_ok _ _ _ hloop]
    rw [hloop] at h
    exact h

end MicRs
