import MicRs.Ogg.Demux

/-!
# The ends of a stream

The first page of a recording carries the flag for the beginning of a stream.
The writer gives the flag for the end to audio pages only, so a recording
without a frame has none, and it finds the last page by its page number, which
wraps: `wrapOggOpus_delimited_iff` says for which recordings the flags are
right.
-/

namespace MicRs

open Ogg

/-- A reader of the container finds the beginning of the stream on the first
page and the end on the last, and on no other. -/
def Delimited (bytes : List UInt8) : Prop :=
  ∃ pages, readPages oggCrcReference bytes = some pages ∧
    ∀ (i : ℕ) (p : Page), pages[i]? = some p →
      (p.first = true ↔ i = 0) ∧ (p.last = true ↔ i + 1 = pages.length)

/-! ## The flags of the audio pages -/

theorem pageFlags_cases (frames : List (List UInt8)) (k : ℕ) :
    pageFlags frames k = 0 ∨ pageFlags frames k = oggEos := by
  unfold pageFlags
  split
  · exact Or.inr rfl
  · exact Or.inl rfl

theorem pageFlags_eq_oggEos (frames : List (List UInt8)) (k : ℕ) :
    pageFlags frames k = oggEos ↔ pageCount frames ≤ (pageIndex k).toNat := by
  unfold pageFlags
  split
  · simp [*]
  · simp [*, oggEos]

/-- **The flag for the end is on the last audio page only** exactly if the page
number wraps on no page but the last. -/
theorem pageFlags_last_iff (frames : List (List UInt8)) :
    (∀ k < pageCount frames,
      (pageFlags frames k = oggEos ↔ k + 1 = pageCount frames)) ↔
      pageCount frames ≤ 2 ^ 32 - 1 := by
  simp only [pageFlags_eq_oggEos, toNat_pageIndex]
  constructor
  · intro h
    by_contra hmany
    -- Page number 0 looks like one far behind the last, and when the pages are
    -- too many even for that, the last one does not look like the last.
    have hwrapped := h (2 ^ 32 - 2) (by omega)
    have hlast := h (pageCount frames - 1) (by omega)
    omega
  · intro h k hk
    omega

/-! ## The pages as written -/

@[simp] theorem length_writtenPages (serial : UInt32)
    (frames : List (List UInt8)) :
    (writtenPages serial frames).length = pageCount frames + 2 := by
  simp [writtenPages, headPages]

theorem writtenPages_valid {serial : UInt32} {frames : List (List UInt8)}
    (hsize : ∀ frame ∈ frames, frame.length ≤ 6374) :
    ∀ p ∈ writtenPages serial frames, p.Valid := by
  intro p hp
  rcases List.mem_append.mp hp with hp | hp
  · exact (headPages_whole frames hp).valid hsize
  · obtain ⟨k, -, rfl⟩ := List.mem_map.mp hp
    exact (audioPage_whole _ _ _ (pageFlags_cases frames k) frames k).valid hsize

theorem getElem?_writtenPages (serial : UInt32) (frames : List (List UInt8))
    (k : ℕ) :
    (writtenPages serial frames)[k + 2]? =
      if k < pageCount frames then some (writtenPage serial frames k)
      else none := by
  show ((List.range (pageCount frames)).map (writtenPage serial frames))[k]? = _
  by_cases hk : k < pageCount frames
  · simp [hk]
  · simp [hk]

theorem writtenPage_first (serial : UInt32) (frames : List (List UInt8))
    (k : ℕ) : (writtenPage serial frames k).first = false := by
  show (pageFlags frames k).toNat.testBit 1 = false
  rcases pageFlags_cases frames k with h | h <;> rw [h] <;> decide

theorem writtenPage_last (serial : UInt32) (frames : List (List UInt8))
    (k : ℕ) : (writtenPage serial frames k).last = true ↔
      pageFlags frames k = oggEos := by
  show (pageFlags frames k).toNat.testBit 2 = true ↔ _
  rcases pageFlags_cases frames k with h | h <;> rw [h] <;> decide

theorem headPage_flags (serial : UInt32) :
    (packetPage serial 0 0 oggBos [opusHead]).first = true ∧
      (packetPage serial 0 0 oggBos [opusHead]).last = false := by
  show Nat.testBit 2 1 = true ∧ Nat.testBit 2 2 = false
  decide

theorem tagsPage_flags (serial : UInt32) :
    (packetPage serial 1 0 0 [opusTags]).first = false ∧
      (packetPage serial 1 0 0 [opusTags]).last = false := by
  show Nat.testBit 0 1 = false ∧ Nat.testBit 0 2 = false
  decide

/-- **Which recordings are delimited**, in terms of the pages. -/
theorem writtenPages_delimited_iff (serial : UInt32)
    (frames : List (List UInt8)) :
    (∀ (i : ℕ) (p : Page), (writtenPages serial frames)[i]? = some p →
      (p.first = true ↔ i = 0) ∧
        (p.last = true ↔ i + 1 = (writtenPages serial frames).length)) ↔
      pageCount frames ≠ 0 ∧ pageCount frames ≤ 2 ^ 32 - 1 := by
  rw [← pageFlags_last_iff, length_writtenPages]
  constructor
  · intro h
    constructor
    · intro hnone
      -- Without audio the last page is that of the tags, without a flag.
      have htags := (h 1 (packetPage serial 1 0 0 [opusTags]) rfl).2
      rw [hnone, (tagsPage_flags serial).2] at htags
      exact Bool.false_ne_true (htags.mpr rfl)
    · intro k hk
      have hpage := getElem?_writtenPages serial frames k
      rw [if_pos hk] at hpage
      rw [← writtenPage_last serial, (h (k + 2) _ hpage).2]
      omega
  · rintro ⟨hsome, haudio⟩ i p hp
    match i with
    | 0 =>
        cases hp
        rw [(headPage_flags serial).1, (headPage_flags serial).2]
        constructor
        · simp
        · simp
    | 1 =>
        cases hp
        rw [(tagsPage_flags serial).1, (tagsPage_flags serial).2]
        constructor
        · simp
        · simp [hsome]
    | k + 2 =>
        rw [getElem?_writtenPages] at hp
        by_cases hk : k < pageCount frames
        · rw [if_pos hk] at hp
          cases hp
          rw [writtenPage_first, writtenPage_last, haudio k hk]
          constructor
          · simp
          · omega
        · rw [if_neg hk] at hp
          cases hp

/-! ## The file -/

/-- The longest recording whose stream is delimited. A build with overflow
checks does not write a longer one, and one without them gives the flag for the
end to a page before the last. -/
def maxFrames : Profile → ℕ
  | .dev => 10 * (2 ^ 32 - 3)
  | .release => 10 * (2 ^ 32 - 1)

theorem delimited_written_iff {serial : UInt32} {frames : List (List UInt8)}
    (hsize : ∀ frame ∈ frames, frame.length ≤ 6374) :
    Delimited ((writtenPages serial frames).flatMap
      (Page.encode oggCrcReference)) ↔
      pageCount frames ≠ 0 ∧ pageCount frames ≤ 2 ^ 32 - 1 := by
  have hread : readPages oggCrcReference ((writtenPages serial frames).flatMap
      (Page.encode oggCrcReference)) = some (writtenPages serial frames) :=
    readPages_encode oggCrcReference_lt (writtenPages_valid hsize)
  rw [← writtenPages_delimited_iff serial frames]
  constructor
  · rintro ⟨pages, hpages, h⟩
    rw [hread] at hpages
    cases hpages
    exact h
  · intro h
    exact ⟨_, hread, h⟩

/-- **When the delimiters of a stream are right**: for every recording with a
frame, up to the longest the page number can count. -/
theorem wrapOggOpus_delimited_iff (profile : Profile) (serial : UInt32)
    {frames : List (List UInt8)}
    (hsize : ∀ frame ∈ frames, frame.length ≤ 6374) :
    (∃ bytes, wrapOggOpus profile frames serial = .ok bytes ∧
      Delimited bytes) ↔
      frames ≠ [] ∧ frames.length ≤ maxFrames profile := by
  have hpos : frames ≠ [] ↔ pageCount frames ≠ 0 := by
    rw [← List.length_pos_iff]
    simp only [pageCount, framesPerPage]
    omega
  have hcount : frames.length ≤ maxFrames profile ↔
      pageCount frames ≤ 2 ^ 32 - 1 ∧
        (profile = .release ∨ pageCount frames + 2 < 2 ^ 32) := by
    cases profile <;> simp only [maxFrames, pageCount, framesPerPage] <;> simp <;>
      omega
  rw [hpos, hcount]
  by_cases hlast : profile = .release ∨ pageCount frames + 2 < 2 ^ 32
  · have hwritten : wrapOggOpus profile frames serial = _ :=
      wrapOggOpus_written hlast
    constructor
    · rintro ⟨bytes, hok, hdelimited⟩
      rw [hwritten] at hok
      cases hok
      obtain ⟨hsome, hmany⟩ := (delimited_written_iff hsize).mp hdelimited
      exact ⟨hsome, hmany, hlast⟩
    · rintro ⟨hsome, hmany, -⟩
      exact ⟨_, hwritten, (delimited_written_iff hsize).mpr ⟨hsome, hmany⟩⟩
  · constructor
    · rintro ⟨bytes, hok, -⟩
      rw [not_or] at hlast
      obtain rfl := Profile.eq_dev hlast.1
      rw [wrapOggOpus_panic serial (by omega)] at hok
      cases hok
    · rintro ⟨-, -, h⟩
      exact absurd h hlast

/-- A recording of a single frame is delimited. -/
theorem wrapOggOpus_delimited_single :
    (∃ bytes, wrapOggOpus .dev [[0xF8, 0xFF, 0xFE]] 7 = .ok bytes ∧
      Delimited bytes) ↔
      [[(0xF8 : UInt8), 0xFF, 0xFE]] ≠ [] ∧
        [[(0xF8 : UInt8), 0xFF, 0xFE]].length ≤ maxFrames .dev :=
  wrapOggOpus_delimited_iff .dev 7 (by simp)

/-- **A recording without a frame has no end**, in every build. -/
theorem wrapOggOpus_empty_unterminated :
    ¬ ∃ profile, ∀ (serial : UInt32) (frames : List (List UInt8)),
      (∀ frame ∈ frames, frame.length ≤ 6374) →
      ∃ bytes, wrapOggOpus profile frames serial = .ok bytes ∧
        Delimited bytes := by
  rintro ⟨profile, hclaim⟩
  obtain ⟨bytes, hok, hdelimited⟩ := hclaim 0 [] (by simp)
  rw [wrapOggOpus_written (Or.inr (by decide))] at hok
  cases hok
  exact ((delimited_written_iff (by simp)).mp hdelimited).1 rfl

end MicRs
