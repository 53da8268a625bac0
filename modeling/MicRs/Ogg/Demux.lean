import MicRs.Ogg.Writer

/-!
# Reading a recording back

What a demuxer finds in the file of a recording (`Demuxes`): pages with right
checksums, one serial, page numbers without a gap, the two header packets and
the frames, and granule positions that count the samples. `wrap_ogg_opus`
writes such a file (`wrapOggOpus_demuxes`).
-/

namespace MicRs

open Ogg

/-- A reader of the container gets `frames` back from `bytes`, under a
serial. -/
def Demuxes (serial : UInt32) (frames : List (List UInt8))
    (bytes : List UInt8) : Prop :=
  ∃ pages, readPages oggCrcReference bytes = some pages ∧
    (∀ p ∈ pages, p.serial = serial.toNat) ∧
    pages.map Page.sequence = List.range pages.length ∧
    packets pages = some (opusHead :: opusTags :: frames) ∧
    ∀ (i : ℕ) (p : Page), pages[i + 2]? = some p → p.granule =
      960 * (((pages.drop 2).take (i + 1)).flatMap Page.packets).length

/-! ## The pages of a stream -/

theorem length_streamPages (serial : UInt32) (frames : List (List UInt8)) :
    (streamPages serial frames).length = pageCount frames + 2 := by
  simp [streamPages, headPages]

/-- The first `k` audio pages hold the first `10 * k` frames. -/
theorem flatMap_pageFrames (frames : List (List UInt8)) (k : ℕ) :
    (List.range k).flatMap (pageFrames frames) = frames.take (10 * k) := by
  induction k with
  | zero => simp
  | succ k ih =>
      have hsplit : 10 * (k + 1) = 10 * k + 10 := by ring
      rw [List.range_succ, List.flatMap_append, ih, hsplit, List.take_add,
        List.flatMap_singleton, pageFrames, framesPerPage, Nat.mul_comm k 10]

theorem mem_of_mem_pageFrames {frames : List (List UInt8)} {k : ℕ}
    {frame : List UInt8} (h : frame ∈ pageFrames frames k) : frame ∈ frames :=
  List.mem_of_mem_drop (List.mem_of_mem_take h)

/-- A page of at most ten whole packets, which are the headers or frames. -/
def IsWholePage (serial : UInt32) (frames : List (List UInt8)) (p : Page) :
    Prop :=
  ∃ pageNo granule, ∃ flags : UInt8, ∃ packets : List (List UInt8),
    p = packetPage serial pageNo granule flags packets ∧
    flags.toNat.testBit 0 = false ∧ packets.length ≤ 10 ∧
    ∀ packet ∈ packets, packet = opusHead ∨ packet = opusTags ∨
      packet ∈ frames

theorem headPages_whole {serial : UInt32} (frames : List (List UInt8)) {p : Page}
    (hp : p ∈ headPages serial) : IsWholePage serial frames p := by
  simp only [headPages, List.mem_cons, List.not_mem_nil, or_false] at hp
  rcases hp with rfl | rfl
  · exact ⟨0, 0, oggBos, _, rfl, by decide, by simp, by simp⟩
  · exact ⟨1, 0, 0, _, rfl, by decide, by simp, by simp⟩

theorem audioPage_whole (serial pageNo : UInt32) (granule : UInt64)
    {flags : UInt8} (hflags : flags = 0 ∨ flags = oggEos)
    (frames : List (List UInt8)) (k : ℕ) : IsWholePage serial frames
      (packetPage serial pageNo granule flags (pageFrames frames k)) := by
  refine ⟨_, _, _, _, rfl, ?_, ?_, ?_⟩
  · rcases hflags with rfl | rfl <;> decide
  · rw [length_pageFrames]
    omega
  · intro packet hmem
    exact Or.inr (Or.inr (mem_of_mem_pageFrames hmem))

theorem IsWholePage.valid {serial : UInt32} {frames : List (List UInt8)}
    {p : Page} (h : IsWholePage serial frames p)
    (hsize : ∀ frame ∈ frames, frame.length ≤ 6374) : p.Valid := by
  obtain ⟨pageNo, granule, flags, packets, rfl, -, hcount, hmem⟩ := h
  apply packetPage_valid
  have hsizes : ∀ packet ∈ packets, packet.length ≤ 6374 := by
    intro packet hpacket
    rcases hmem packet hpacket with rfl | rfl | hframe
    · decide
    · decide
    · exact hsize packet hframe
  have hlaces := length_laces_le hsizes
  omega

/-- Every page of a stream is a page of whole packets. -/
theorem streamPages_whole {serial : UInt32} {frames : List (List UInt8)}
    {p : Page} (hp : p ∈ streamPages serial frames) :
    IsWholePage serial frames p := by
  rcases List.mem_append.mp hp with hp | hp
  · exact headPages_whole frames hp
  · obtain ⟨k, -, rfl⟩ := List.mem_map.mp hp
    apply audioPage_whole
    by_cases hlast : pageCount frames ≤ k + 1
    · exact Or.inr (if_pos hlast)
    · exact Or.inl (if_neg hlast)

theorem streamPages_valid {serial : UInt32} {frames : List (List UInt8)}
    (hsize : ∀ frame ∈ frames, frame.length ≤ 6374) :
    ∀ p ∈ streamPages serial frames, p.Valid :=
  fun _ hp => (streamPages_whole hp).valid hsize

theorem streamPages_serial {serial : UInt32} {frames : List (List UInt8)} :
    ∀ p ∈ streamPages serial frames, p.serial = serial.toNat := by
  intro p hp
  obtain ⟨pageNo, granule, flags, packets, rfl, -⟩ := streamPages_whole hp
  rfl

theorem streamPages_sequence {serial : UInt32} {frames : List (List UInt8)}
    (hpages : pageCount frames + 1 < 2 ^ 32) :
    (streamPages serial frames).map Page.sequence =
      List.range (streamPages serial frames).length := by
  have haudio : ∀ k ∈ List.range (pageCount frames),
      (Page.sequence ∘ audioPage serial frames) k = k + 2 := by
    intro k hk
    have hlt := List.mem_range.mp hk
    show (UInt32.ofNat (k + 2)).toNat = k + 2
    rw [UInt32.toNat_ofNat']
    omega
  rw [length_streamPages, streamPages, List.map_append, List.map_map,
    List.map_congr_left haudio, Nat.add_comm _ 2, List.range_add]
  simp only [Nat.add_comm 2]
  rfl

theorem flatMap_packets_audio (serial : UInt32) (frames : List (List UInt8))
    (k : ℕ) :
    ((List.range k).map (audioPage serial frames)).flatMap Page.packets =
      frames.take (10 * k) := by
  rw [← flatMap_pageFrames, List.flatMap_map]
  simp [audioPage]

theorem le_pageCount (frames : List (List UInt8)) :
    frames.length ≤ 10 * pageCount frames := by
  simp only [pageCount, framesPerPage]
  omega

/-- The packets of a stream: the two headers, then the frames. -/
theorem streamPages_packets (serial : UInt32) (frames : List (List UInt8)) :
    packets (streamPages serial frames) =
      some (opusHead :: opusTags :: frames) := by
  have hwhole : ∀ p ∈ streamPages serial frames, p.continued = false ∧
      p.lacing = p.packets.flatMap (fun packet => laces packet.length) ∧
      p.body = p.packets.flatten := by
    intro p hp
    obtain ⟨pageNo, granule, flags, packets, rfl, hcont, -⟩ :=
      streamPages_whole hp
    rw [packetPage_packets]
    exact ⟨hcont, rfl, rfl⟩
  rw [packets_of_whole hwhole, streamPages, List.flatMap_append,
    flatMap_packets_audio, List.take_of_length_le (le_pageCount frames)]
  simp [headPages]

theorem streamPages_granule {serial : UInt32} {frames : List (List UInt8)}
    (hpages : pageCount frames + 1 < 2 ^ 32) {i : ℕ} {p : Page}
    (hp : (streamPages serial frames)[i + 2]? = some p) :
    p.granule = 960 * ((((streamPages serial frames).drop 2).take
      (i + 1)).flatMap Page.packets).length := by
  have haudio : (streamPages serial frames).drop 2 =
      (List.range (pageCount frames)).map (audioPage serial frames) :=
    List.drop_left' rfl
  have hget : ((List.range (pageCount frames)).map
      (audioPage serial frames))[i]? = some p := by
    rw [← haudio, List.getElem?_drop, Nat.add_comm 2 i]
    exact hp
  rw [List.getElem?_map, Option.map_eq_some_iff] at hget
  obtain ⟨k, hk, rfl⟩ := hget
  obtain ⟨hi, rfl⟩ := List.getElem?_eq_some_iff.mp hk
  rw [List.length_range] at hi
  have hsamples : samplesBefore frames (i + 1) < 2 ^ 64 := by
    simp only [samplesBefore]
    omega
  have htake : (List.range (pageCount frames)).take (i + 1) =
      List.range (i + 1) := by
    rw [List.take_range, Nat.min_eq_left (by omega)]
  rw [haudio, ← List.map_take, htake, flatMap_packets_audio, List.length_take]
  simp only [audioPage, packetPage, List.getElem_range, UInt64.toNat_ofNat']
  exact Nat.mod_eq_of_lt hsamples

/-! ## The file -/

/-- Reading the bytes of a stream. -/
theorem readPages_stream {serial : UInt32} {frames : List (List UInt8)}
    (hsize : ∀ frame ∈ frames, frame.length ≤ 6374) :
    readPages oggCrcReference
      ((streamPages serial frames).flatMap (Page.encode oggCrcReference)) =
      some (streamPages serial frames) :=
  readPages_encode oggCrcReference_lt (streamPages_valid hsize)

/-- **The writer is inverted by a demuxer.** -/
theorem wrapOggOpus_demuxes (serial : UInt32) {frames : List (List UInt8)}
    (hcount : frames.length < 10 * (2 ^ 32 - 2))
    (hsize : ∀ frame ∈ frames, frame.length ≤ 6374) :
    (∃ bytes, wrapOggOpus .release frames serial = .ok bytes ∧
      Demuxes serial frames bytes) ∧
    (∀ bytes, wrapOggOpus .dev frames serial = .ok bytes →
      Demuxes serial frames bytes) ∧
    (frames.length ≤ 10 * (2 ^ 32 - 3) →
      ∃ bytes, wrapOggOpus .dev frames serial = .ok bytes) := by
  have hpages : pageCount frames + 1 < 2 ^ 32 := by
    simp only [pageCount, framesPerPage]
    omega
  have hrelease : wrapOggOpus .release frames serial = _ :=
    wrapOggOpus_eq hpages (Or.inl rfl)
  have hdemux : Demuxes serial frames ((streamPages serial frames).flatMap
      (Page.encode oggCrcReference)) :=
    ⟨streamPages serial frames, readPages_stream hsize, streamPages_serial,
      streamPages_sequence hpages, streamPages_packets serial frames,
      fun i p hp => streamPages_granule hpages hp⟩
  -- Only the last increment of the page number tells the builds apart.
  refine ⟨⟨_, hrelease, hdemux⟩, ?_, ?_⟩
  · intro bytes hdev
    have hsame := wrapOggOpus_release_of_ok hdev
    rw [hrelease] at hsame
    cases hsame
    exact hdemux
  · intro hshort
    refine ⟨_, wrapOggOpus_eq hpages (Or.inr ?_)⟩
    simp only [pageCount, framesPerPage]
    omega

/-- Twelve frames: an empty one, one as long as a lacing value can say, and ten
that take the stream to a second page. -/
def laced : List (List UInt8) :=
  [] :: List.replicate 255 0x55 :: List.replicate 10 [0xF8, 0xFF, 0xFE]

theorem wrapOggOpus_demuxes_laced :
    ∃ bytes, wrapOggOpus .release laced 7 = .ok bytes ∧
      Demuxes 7 laced bytes := by
  have hsize : ∀ frame ∈ laced, frame.length ≤ 6374 := by
    rw [laced, List.forall_mem_cons, List.forall_mem_cons,
      List.length_replicate]
    exact ⟨by decide, by decide, by decide⟩
  exact (wrapOggOpus_demuxes 7 (by decide) hsize).1

/-- Different recordings make different files. -/
theorem wrapOggOpus_injective {profile : Profile} {serial : UInt32}
    {frames frames' : List (List UInt8)} {bytes : List UInt8}
    (hcount : pageCount frames + 2 < 2 ^ 32)
    (hcount' : pageCount frames' + 2 < 2 ^ 32)
    (hsize : ∀ frame ∈ frames, frame.length ≤ 6374)
    (hsize' : ∀ frame ∈ frames', frame.length ≤ 6374)
    (h : wrapOggOpus profile frames serial = .ok bytes)
    (h' : wrapOggOpus profile frames' serial = .ok bytes) :
    frames = frames' := by
  rw [wrapOggOpus_eq (by omega) (Or.inr hcount)] at h
  rw [wrapOggOpus_eq (by omega) (Or.inr hcount')] at h'
  have hbytes := Except.ok.inj (h.trans h'.symm)
  have hread : _ = some (streamPages serial frames) := readPages_stream hsize
  rw [hbytes, readPages_stream hsize'] at hread
  have hpackets := streamPages_packets serial frames
  rw [← Option.some.inj hread, streamPages_packets serial frames'] at hpackets
  simpa using hpackets.symm

end MicRs
