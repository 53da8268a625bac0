import MicRs.Base.Records
import MicRs.Model.Protocol

/-!
# The entries of a file list

The loop of `parse_file_list` has two exits: the announced number of entries is
reached, or the response has no whole entry left. So it goes through the
entries that are both announced and whole (`entriesOf`), and gives them all
unless a size overflows in a build with overflow checks (`parseFileList_eq`,
`parseFileList_panic`).
-/

namespace MicRs

open Records

/-! ## Entries -/

/-- An entry as it is sent; `time` is the id of the file. -/
structure FileEntry where
  time : UInt32
  duration : UInt32
deriving DecidableEq, Repr

/-- The entry whose eight bytes start at `offset`. -/
def FileEntry.read (data : List UInt8) (offset : ℕ) : FileEntry where
  time := u32FromLeBytes (arrayAt 4 data offset)
  duration := u32FromLeBytes (arrayAt 4 data (offset + 4))

/-- The number of files a response announces. -/
def announcedCount (data : List UInt8) : ℕ :=
  (u16FromLeBytes (arrayAt 2 data 9)).toNat

/-- The number of whole entries a response has room for. -/
def wholeCount (data : List UInt8) : ℕ := (data.length - 11) / 8

/-- The entries of a response that are announced and whole. -/
def entriesOf (data : List UInt8) : List FileEntry :=
  (List.range (min (announcedCount data) (wholeCount data))).map fun k =>
    .read data (11 + 8 * k)

@[simp] theorem length_entriesOf (data : List UInt8) :
    (entriesOf data).length = min (announcedCount data) (wholeCount data) := by
  simp [entriesOf]

/-- A response too short for a count has no entry. -/
theorem entriesOf_of_short {data : List UInt8} (h : data.length < 11) :
    entriesOf data = [] := by
  have hnone : wholeCount data = 0 := by
    unfold wholeCount
    omega
  simp [entriesOf, hnone]

/-- What is returned for an entry, with the size wrapped to 32 bits. -/
def FileEntry.info (entry : FileEntry) : FileInfo where
  fileId := entry.time
  size := entry.duration / 20 * UInt32.ofNat slicePayloadSize
  durationMs := entry.duration

/-- The size of an entry fits in 32 bits. -/
def FileEntry.Fits (entry : FileEntry) : Prop :=
  entry.duration.toNat / 20 * 166 < 2 ^ 32

/-- The longest duration whose size fits: not quite six days. -/
theorem FileEntry.fits_iff (entry : FileEntry) :
    entry.Fits ↔ entry.duration.toNat ≤ 517465939 := by
  unfold FileEntry.Fits
  omega

/-- **A size that fits is exact, and one that does not is not.** -/
theorem FileEntry.size_exact_iff (entry : FileEntry) :
    entry.info.size.toNat = entry.duration.toNat / 20 * 166 ↔ entry.Fits := by
  have hsize : entry.info.size.toNat =
      entry.duration.toNat / 20 * 166 % 2 ^ 32 := by
    show (entry.duration / 20 * UInt32.ofNat slicePayloadSize).toNat = _
    rw [UInt32.toNat_mul, UInt32.toNat_div]
    rfl
  rw [hsize]
  unfold FileEntry.Fits
  constructor
  · intro h
    rw [← h]
    exact Nat.mod_lt _ (by norm_num)
  · exact Nat.mod_eq_of_lt

/-! ## The loop -/

variable (profile : Profile)

theorem sizeOf_entry {entry : FileEntry} (h : profile = .release ∨ entry.Fits) :
    mulU32 profile (entry.duration / 20) (UInt32.ofNat slicePayloadSize) =
      .ok entry.info.size := by
  rcases h with rfl | h
  · rfl
  · apply arith_of_fits
    show (entry.duration / 20).toNat * 166 < 2 ^ 32
    rw [UInt32.toNat_div]
    exact h

theorem sizeOf_entry_panic {entry : FileEntry} (h : ¬ entry.Fits) :
    mulU32 .dev (entry.duration / 20) (UInt32.ofNat slicePayloadSize) =
      .error .overflow := by
  apply arith_of_not_fits
  show ¬ (entry.duration / 20).toNat * 166 < 2 ^ 32
  rw [UInt32.toNat_div]
  exact h

/-- A round that finds a whole entry. -/
theorem parseFileListLoop_round {data : List UInt8} {k : ℕ}
    (hk : k < wholeCount data) (remaining : ℕ) (files : List FileInfo) :
    parseFileListLoop profile data (remaining + 1) (11 + 8 * k) files = (do
      let size ← mulU32 profile ((FileEntry.read data (11 + 8 * k)).duration / 20)
        (UInt32.ofNat slicePayloadSize)
      parseFileListLoop profile data remaining (11 + 8 * (k + 1))
        (files ++ [{ fileId := (FileEntry.read data (11 + 8 * k)).time, size
                     durationMs := (FileEntry.read data (11 + 8 * k)).duration }])) := by
  unfold wholeCount at hk
  have hroom : ¬ 11 + 8 * k + 8 > data.length := by omega
  have htime := tryIntoArray_field 4 (11 + 8 * k) data (by omega)
  have hduration := tryIntoArray_field 4 (11 + 8 * k + 4) data (by omega)
  have hwidth : 11 + 8 * k + 8 - (11 + 8 * k + 4) = 4 := by omega
  rw [parseFileListLoop, if_neg hroom, slice_eq (by omega) (by omega),
    slice_eq (by omega) (by omega), Nat.add_sub_cancel_left, hwidth]
  simp only [bind, Except.bind, htime, hduration]
  rfl

/-- A round that finds none. -/
theorem parseFileListLoop_end {data : List UInt8} {k : ℕ}
    (hk : wholeCount data ≤ k) (remaining : ℕ) (files : List FileInfo) :
    parseFileListLoop profile data remaining (11 + 8 * k) files =
      .ok (some files) := by
  cases remaining with
  | zero => rfl
  | succ remaining =>
      unfold wholeCount at hk
      have hend : 11 + 8 * k + 8 > data.length := by omega
      rw [parseFileListLoop, if_pos hend]
      rfl

/-- **The loop from entry `k` on**, as long as the sizes fit or nobody checks. -/
theorem parseFileListLoop_eq {data : List UInt8} (remaining k : ℕ)
    (files : List FileInfo)
    (h : profile = .release ∨
      ∀ j ∈ List.range' k (min remaining (wholeCount data - k)),
        (FileEntry.read data (11 + 8 * j)).Fits) :
    parseFileListLoop profile data remaining (11 + 8 * k) files =
      .ok (some (files ++
        (List.range' k (min remaining (wholeCount data - k))).map fun j =>
          (FileEntry.read data (11 + 8 * j)).info)) := by
  induction remaining generalizing k files with
  | zero => simp [parseFileListLoop, pure, Except.pure]
  | succ remaining ih =>
      by_cases hk : k < wholeCount data
      · have hcount : min (remaining + 1) (wholeCount data - k) =
            min remaining (wholeCount data - (k + 1)) + 1 := by omega
        rw [hcount, List.range'_succ] at h ⊢
        have hround := sizeOf_entry profile
          (h.imp_right fun h => h k List.mem_cons_self)
        have hrest := ih (k + 1) (files ++ [(FileEntry.read data (11 + 8 * k)).info])
          (h.imp_right fun h j hj => h j (List.mem_cons_of_mem k hj))
        rw [parseFileListLoop_round profile hk, hround]
        simpa [bind, Except.bind, FileEntry.info] using hrest
      · have hcount : min (remaining + 1) (wholeCount data - k) = 0 := by omega
        rw [parseFileListLoop_end profile (by omega), hcount]
        simp

theorem parseFileListLoop_panic {data : List UInt8} (remaining k : ℕ)
    (files : List FileInfo)
    (h : ¬ ∀ j ∈ List.range' k (min remaining (wholeCount data - k)),
      (FileEntry.read data (11 + 8 * j)).Fits) :
    parseFileListLoop .dev data remaining (11 + 8 * k) files =
      .error .overflow := by
  induction remaining generalizing k files with
  | zero => simp at h
  | succ remaining ih =>
      by_cases hk : k < wholeCount data
      · have hcount : min (remaining + 1) (wholeCount data - k) =
            min remaining (wholeCount data - (k + 1)) + 1 := by omega
        rw [hcount, List.range'_succ, List.forall_mem_cons] at h
        rw [parseFileListLoop_round .dev hk]
        -- Either this entry ends the loop, or one that comes after it does.
        by_cases hfits : (FileEntry.read data (11 + 8 * k)).Fits
        · rw [sizeOf_entry .dev (Or.inr hfits)]
          exact ih (k + 1) _ fun hrest => h ⟨hfits, hrest⟩
        · rw [sizeOf_entry_panic hfits]
          rfl
      · have hcount : min (remaining + 1) (wholeCount data - k) = 0 := by omega
        rw [hcount] at h
        simp at h

/-! ## The parser -/

theorem parseFileList_loop {data : List UInt8} (h : 11 ≤ data.length) :
    parseFileList profile data =
      parseFileListLoop profile data (announcedCount data) 11 [] := by
  have hshort : ¬ data.length < 11 := by omega
  have hcount := tryIntoArray_field 2 9 data (by omega)
  rw [parseFileList, if_neg hshort, slice_eq (by omega) (by omega)]
  simp only [bind, Except.bind, hcount]
  rfl

/-- The entries of a response, as the loop counts them. -/
theorem entriesOf_eq (data : List UInt8) :
    entriesOf data =
      (List.range' 0 (min (announcedCount data) (wholeCount data - 0))).map
        fun j => .read data (11 + 8 * j) := by
  rw [entriesOf, List.range_eq_range', Nat.sub_zero]

/-- **`parse_file_list` returns the entries that are announced and whole**, as
long as the sizes fit or nobody checks. -/
theorem parseFileList_eq {data : List UInt8}
    (h : profile = .release ∨ ∀ entry ∈ entriesOf data, entry.Fits) :
    parseFileList profile data =
      .ok (if data.length < 11 then none
        else some ((entriesOf data).map FileEntry.info)) := by
  by_cases hlen : data.length < 11
  · rw [parseFileList, if_pos hlen, if_pos hlen]
    rfl
  · rw [entriesOf_eq, List.forall_mem_map] at h
    have hloop := parseFileListLoop_eq profile (announcedCount data) 0 [] h
    rw [parseFileList_loop profile (by omega), if_neg hlen, entriesOf_eq,
      List.map_map]
    exact hloop

theorem parseFileList_panic {data : List UInt8}
    (h : ¬ ∀ entry ∈ entriesOf data, entry.Fits) :
    parseFileList .dev data = .error .overflow := by
  have hlen : 11 ≤ data.length := by
    by_contra hshort
    exact h (by simp [entriesOf_of_short (Nat.lt_of_not_ge hshort)])
  rw [entriesOf_eq, List.forall_mem_map] at h
  rw [parseFileList_loop .dev hlen]
  exact parseFileListLoop_panic (announcedCount data) 0 [] h

/-- The sizes overflow only where somebody checks. -/
theorem dev_of_not_fits {profile : Profile} {data : List UInt8}
    (h : ¬ (profile = .release ∨ ∀ entry ∈ entriesOf data, entry.Fits)) :
    profile = .dev ∧ ¬ ∀ entry ∈ entriesOf data, entry.Fits := by
  rw [not_or] at h
  exact ⟨Profile.eq_dev h.1, h.2⟩

/-- The sizes fit where a list is returned, or nobody checks. -/
theorem fits_of_parseFileList_ok {data : List UInt8}
    {files : Option (List FileInfo)}
    (h : parseFileList profile data = .ok files) :
    profile = .release ∨ ∀ entry ∈ entriesOf data, entry.Fits := by
  by_contra hno
  obtain ⟨rfl, hlong⟩ := dev_of_not_fits hno
  rw [parseFileList_panic hlong] at h
  cases h

/-- What a returned list holds. -/
theorem parseFileList_some {data : List UInt8} {files : List FileInfo}
    (h : parseFileList profile data = .ok (some files)) :
    11 ≤ data.length ∧
      (profile = .release ∨ ∀ entry ∈ entriesOf data, entry.Fits) ∧
      files = (entriesOf data).map FileEntry.info := by
  have hfits := fits_of_parseFileList_ok profile h
  rw [parseFileList_eq profile hfits] at h
  by_cases hlen : data.length < 11
  · rw [if_pos hlen] at h
    cases h
  · rw [if_neg hlen] at h
    cases h
    exact ⟨by omega, hfits, rfl⟩

end MicRs
