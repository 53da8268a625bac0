import MicRs.Listing.Entries

/-!
# File lists, encoded and decoded

A device lists its files in a message of the announced count and eight bytes a
file (`fileListMessage`), and `parse_file_list` finds these entries in it
(`entriesOf_fileListMessage`). What it makes of the durations is exact up to
not quite six days, from where on the size overflows its 32 bits
(`parseFileList_sizesExact_iff`, `parseFileList_decodes_iff`).
-/

namespace MicRs

open Records

variable (profile : Profile)

/-! ## Encoding -/

def FileEntry.encode (entry : FileEntry) : List UInt8 :=
  u32ToLeBytes entry.time ++ u32ToLeBytes entry.duration

@[simp] theorem FileEntry.length_encode (entry : FileEntry) :
    entry.encode.length = 8 := by
  simp [FileEntry.encode]

/-- The response to a request for the file list. -/
def fileListMessage (header : List UInt8) (entries : List FileEntry)
    (trailing : List UInt8) : List UInt8 :=
  header ++ u16ToLeBytes (UInt16.ofNat entries.length) ++
    entries.flatMap FileEntry.encode ++ trailing

/-- An entry is read where its bytes stand. -/
theorem FileEntry.read_encode {data post : List UInt8} {lo : ℕ}
    {entry : FileEntry} (h : data.drop lo = entry.encode ++ post) :
    FileEntry.read data lo = entry := by
  have hlen := congrArg List.length h
  rw [List.length_drop, List.length_append, entry.length_encode] at hlen
  have htime : (arrayAt 4 data lo).toList = u32ToLeBytes entry.time := by
    rw [toList_arrayAt (by omega), h, FileEntry.encode, List.append_assoc,
      List.take_left' (length_u32ToLeBytes _)]
  have hduration : (arrayAt 4 data (lo + 4)).toList =
      u32ToLeBytes entry.duration := by
    rw [toList_arrayAt (by omega), ← List.drop_drop, h, FileEntry.encode,
      List.append_assoc, List.drop_left' (length_u32ToLeBytes _),
      List.take_left' (length_u32ToLeBytes _)]
  rw [FileEntry.read, u32FromLeBytes_toLeBytes htime,
    u32FromLeBytes_toLeBytes hduration]

section Message

variable {header : List UInt8} (hheader : header.length = 9)
  {entries : List FileEntry} (hcount : entries.length ≤ 65535)
  (trailing : List UInt8)
include hheader

theorem drop_fileListMessage :
    (fileListMessage header entries trailing).drop 11 =
      entries.flatMap FileEntry.encode ++ trailing := by
  have hfront : (header ++ u16ToLeBytes (UInt16.ofNat entries.length)).length =
      11 := by simp [hheader]
  rw [fileListMessage, List.append_assoc, List.drop_left' hfront]

theorem length_fileListMessage :
    (fileListMessage header entries trailing).length =
      11 + 8 * entries.length + trailing.length := by
  simp only [fileListMessage, List.length_append, hheader, length_u16ToLeBytes,
    length_flatMap FileEntry.length_encode]

include hcount in
theorem announcedCount_fileListMessage :
    announcedCount (fileListMessage header entries trailing) =
      entries.length := by
  have hfield : (arrayAt 2 (fileListMessage header entries trailing) 9).toList =
      u16ToLeBytes (UInt16.ofNat entries.length) := by
    rw [toList_arrayAt (by rw [length_fileListMessage hheader]; omega),
      fileListMessage, List.append_assoc, List.append_assoc,
      List.drop_left' hheader, List.take_left' (length_u16ToLeBytes _)]
  rw [announcedCount, u16FromLeBytes_toLeBytes hfield, UInt16.toNat_ofNat']
  omega

include hcount in
/-- **The entries found in a message are those put into it**, whatever follows
them. -/
theorem entriesOf_fileListMessage :
    entriesOf (fileListMessage header entries trailing) = entries := by
  have hall : min (announcedCount (fileListMessage header entries trailing))
      (wholeCount (fileListMessage header entries trailing)) =
      entries.length := by
    rw [announcedCount_fileListMessage hheader hcount, wholeCount,
      length_fileListMessage hheader]
    omega
  apply List.ext_getElem
  · rw [length_entriesOf, hall]
  · intro k _ hk
    have hread := FileEntry.read_encode (drop_table FileEntry.length_encode hk
      (drop_fileListMessage hheader trailing))
    simpa [entriesOf] using hread

end Message

/-! ## Sizes -/

/-- The sizes in the lists of some responses are exact: parsing panics on none
of them, every size is the number of 20 ms frames times 166, and longer files
are larger, across all lists. -/
structure SizesExact (responses : List (List UInt8)) : Prop where
  returns : ∀ data ∈ responses, ∃ files, parseFileList profile data = .ok files
  exact : ∀ data ∈ responses, ∀ files,
    parseFileList profile data = .ok (some files) → ∀ file ∈ files,
      file.size.toNat = file.durationMs.toNat / 20 * 166
  monotone : ∀ data ∈ responses, ∀ data' ∈ responses, ∀ files files',
    parseFileList profile data = .ok (some files) →
    parseFileList profile data' = .ok (some files') →
    ∀ file ∈ files, ∀ file' ∈ files', file.durationMs ≤ file'.durationMs →
      file.size ≤ file'.size

/-- The files of a list whose sizes fit have exact sizes. -/
theorem size_of_fits {data : List UInt8} {files : List FileInfo}
    (hfits : ∀ entry ∈ entriesOf data, entry.Fits)
    (h : parseFileList profile data = .ok (some files)) :
    ∀ file ∈ files, file.size.toNat = file.durationMs.toNat / 20 * 166 := by
  obtain ⟨-, -, rfl⟩ := parseFileList_some profile h
  intro file hfile
  obtain ⟨entry, hentry, rfl⟩ := List.mem_map.mp hfile
  exact entry.size_exact_iff.mpr (hfits entry hentry)

/-- A list with a size that does not fit panics, or is returned with a size
that is not exact. -/
theorem size_of_not_fits {data : List UInt8} {entry : FileEntry}
    (hentry : entry ∈ entriesOf data) (hfits : ¬ entry.Fits) :
    (∀ files, parseFileList profile data ≠ .ok files) ∨
      ∃ files, parseFileList profile data = .ok (some files) ∧
        ∃ file ∈ files, file.size.toNat ≠ file.durationMs.toNat / 20 * 166 := by
  cases profile with
  | dev =>
      refine Or.inl fun files hok => ?_
      rw [parseFileList_panic fun hall => hfits (hall entry hentry)] at hok
      cases hok
  | release =>
      have hlen : ¬ data.length < 11 := by
        intro hshort
        rw [entriesOf_of_short hshort] at hentry
        cases hentry
      refine Or.inr ⟨(entriesOf data).map FileEntry.info, ?_, entry.info,
        List.mem_map_of_mem hentry, fun hsize =>
          hfits (entry.size_exact_iff.mp hsize)⟩
      rw [parseFileList_eq .release (Or.inl rfl), if_neg hlen]

/-- **When the sizes in file lists are exact**: exactly when no entry that is
read lasts longer than 517465939 ms. -/
theorem parseFileList_sizesExact_iff (responses : List (List UInt8)) :
    SizesExact profile responses ↔ ∀ data ∈ responses,
      ∀ entry ∈ entriesOf data, entry.duration.toNat ≤ 517465939 := by
  constructor
  · intro h data hdata entry hentry
    rw [← entry.fits_iff]
    by_contra hfits
    rcases size_of_not_fits profile hentry hfits with hpanic |
      ⟨files, hok, file, hfile, hsize⟩
    · obtain ⟨files, hok⟩ := h.returns data hdata
      exact hpanic files hok
    · exact hsize (h.exact data hdata files hok file hfile)
  · intro h
    have hfits : ∀ data ∈ responses, ∀ entry ∈ entriesOf data, entry.Fits :=
      fun data hdata entry hentry =>
        entry.fits_iff.mpr (h data hdata entry hentry)
    constructor
    case returns =>
      intro data hdata
      exact ⟨_, parseFileList_eq profile (Or.inr (hfits data hdata))⟩
    case exact =>
      intro data hdata files hok
      exact size_of_fits profile (hfits data hdata) hok
    case monotone =>
      intro data hdata data' hdata' files files' hok hok' file hfile file' hfile'
        hle
      have hsize := size_of_fits profile (hfits data hdata) hok file hfile
      have hsize' := size_of_fits profile (hfits data' hdata') hok' file' hfile'
      rw [UInt32.le_iff_toNat_le] at hle ⊢
      rw [hsize, hsize']
      exact Nat.mul_le_mul_right 166 (Nat.div_le_div_right hle)

/-- A list of one file, one millisecond too long. -/
def longListMessage : List UInt8 :=
  fileListMessage [0x09, 0xFF, 0x00, 0x00, 0x01, 0x1A, 0x0E, 0x00, 0x00]
    [⟨1, 517465940⟩] []

theorem entriesOf_longListMessage :
    entriesOf longListMessage = [⟨1, 517465940⟩] :=
  entriesOf_fileListMessage rfl (by decide) []

/-- **The size of a file of six days is wrong** in every build. -/
theorem parseFileList_sizes_overflow :
    ¬ ∃ profile, ∀ responses, SizesExact profile responses := by
  rintro ⟨profile, hclaim⟩
  have hmem : ⟨1, 517465940⟩ ∈ entriesOf longListMessage := by
    rw [entriesOf_longListMessage]
    exact List.mem_cons_self
  have hlong : ¬ FileEntry.Fits ⟨1, 517465940⟩ := by
    rw [FileEntry.fits_iff]
    decide
  have hexact := hclaim [longListMessage]
  rcases size_of_not_fits profile hmem hlong with hpanic |
    ⟨files, hok, file, hfile, hsize⟩
  · obtain ⟨files, hok⟩ := hexact.returns longListMessage List.mem_cons_self
    exact hpanic files hok
  · exact hsize (hexact.exact longListMessage List.mem_cons_self files hok file
      hfile)

/-! ## Decoding -/

/-- The encoded list is decoded: as many files, with their ids and durations,
in their order. -/
def Decodes (header : List UInt8) (entries : List FileEntry)
    (trailing : List UInt8) : Prop :=
  ∃ files, parseFileList profile (fileListMessage header entries trailing) =
      .ok (some files) ∧
    files.map (fun file => (file.fileId, file.durationMs)) =
      entries.map fun entry => (entry.time, entry.duration)

/-- **When an encoded list is decoded**: always in a build without overflow
checks, and in one with them exactly when no duration is longer than
517465939 ms. What follows the entries does not matter. -/
theorem parseFileList_decodes_iff {header : List UInt8}
    {entries : List FileEntry} (hheader : header.length = 9)
    (hcount : entries.length ≤ 65535) (trailing : List UInt8) :
    Decodes profile header entries trailing ↔
      profile = .release ∨
        ∀ entry ∈ entries, entry.duration.toNat ≤ 517465939 := by
  have hentries := entriesOf_fileListMessage hheader hcount trailing
  have hlen : ¬ (fileListMessage header entries trailing).length < 11 := by
    rw [length_fileListMessage hheader]
    omega
  constructor
  · rintro ⟨files, hok, -⟩
    have hfits := fits_of_parseFileList_ok profile hok
    rw [hentries] at hfits
    exact hfits.imp_right fun hall entry hentry =>
      entry.fits_iff.mp (hall entry hentry)
  · intro h
    have hfits : profile = .release ∨ ∀ entry ∈ entriesOf
        (fileListMessage header entries trailing), entry.Fits := by
      rw [hentries]
      exact h.imp_right fun hall entry hentry =>
        entry.fits_iff.mpr (hall entry hentry)
    refine ⟨entries.map FileEntry.info, ?_, by rw [List.map_map]; rfl⟩
    rw [parseFileList_eq profile hfits, if_neg hlen, hentries]

/-- The list of the test with two files, and a checksum behind it. -/
theorem parseFileList_decodes_two :
    Decodes .dev (List.replicate 9 0) [⟨100, 20000⟩, ⟨200, 40000⟩] [0x7C] :=
  (parseFileList_decodes_iff .dev rfl (by decide) [0x7C]).mpr
    (Or.inr (by decide))

/-- A build with overflow checks does not decode a list with a file of six
days. -/
theorem parseFileList_decodes_overflow :
    ¬ ∀ (profile : Profile) (header : List UInt8) (entries : List FileEntry)
      (trailing : List UInt8), header.length = 9 → entries.length ≤ 65535 →
      Decodes profile header entries trailing := by
  intro hclaim
  have hpanic : parseFileList .dev
      (fileListMessage (List.replicate 9 0) [⟨1, 517465940⟩] []) =
      .error .overflow := by
    apply parseFileList_panic
    rw [entriesOf_fileListMessage rfl (by decide), List.forall_mem_singleton,
      FileEntry.fits_iff]
    decide
  obtain ⟨files, hok, -⟩ := hclaim .dev (List.replicate 9 0)
    [⟨1, 517465940⟩] [] rfl (by decide)
  rw [hpanic] at hok
  cases hok

end MicRs
