import MicRs.Listing.Entries

/-!
# The parsers on any bytes

A device may send anything. Whatever it is, the five parsers access only bytes
that are there, convert only what fits, and come to an end; they refuse a
message for its length or, for a file header, its success nibble, and for
nothing else (`parsers_safe`).
-/

namespace MicRs

variable (profile : Profile) (data : List UInt8)

/-- What the parsers make of a message. All but one return, so none of their
accesses and conversions fails and their loops end; the size of a file may
overflow in a build with overflow checks, and nothing else stops the parser of
the file list. -/
structure ParsersSafe : Prop where
  response : ∃ resp, parseResponse data = .ok resp ∧
    (resp = none ↔ data.length < 7)
  fileHeader : ∃ hdr, parseFileHeader data = .ok hdr ∧
    (hdr = none ↔ data.length < 97 ∨ byteAt data 4 &&& 0x0F ≠ 1)
  audioSlices : ∃ slices, parseAudioSlices data = .ok slices ∧
    slices.length = (data.length - 9) / 166 ∧
    ∀ slice ∈ slices, slice.encryptedChunk.length = 160
  fileList : parseFileList profile data = .ok none ↔ data.length < 11
  fileListPanic : ∀ p, parseFileList profile data = .error p ↔
    p = .overflow ∧ profile = .dev ∧ ¬ ∀ entry ∈ entriesOf data, entry.Fits
  ecdhResponse : ∃ resp, parseEcdhResponse data = .ok resp ∧
    (resp = none ↔ data.length < 106)

/-- What is refused under a condition. -/
theorem none_iff_refused {α : Type} {refused : Prop} [Decidable refused]
    {a : α} : (if refused then none else some a) = none ↔ refused := by
  by_cases hrefused : refused
  · simp [hrefused]
  · simp [hrefused]

/-! ## The file list -/

theorem parseFileList_none_iff :
    parseFileList profile data = .ok none ↔ data.length < 11 := by
  by_cases hfits : profile = .release ∨ ∀ entry ∈ entriesOf data, entry.Fits
  · rw [parseFileList_eq profile hfits, Except.ok.injEq, none_iff_refused]
  · obtain ⟨rfl, hno⟩ := dev_of_not_fits hfits
    rw [parseFileList_panic hno]
    constructor
    · rintro ⟨⟩
    · intro hshort
      -- A response without a count has no entry that could overflow.
      rw [entriesOf_of_short hshort] at hno
      exact absurd (fun _ hentry => nomatch hentry) hno

theorem parseFileList_error_iff (p : Panic) :
    parseFileList profile data = .error p ↔ p = .overflow ∧ profile = .dev ∧
      ¬ ∀ entry ∈ entriesOf data, entry.Fits := by
  by_cases hfits : profile = .release ∨ ∀ entry ∈ entriesOf data, entry.Fits
  · rw [parseFileList_eq profile hfits]
    constructor
    · rintro ⟨⟩
    · rintro ⟨-, rfl, hno⟩
      exact absurd (hfits.resolve_left (by decide)) hno
  · obtain ⟨rfl, hno⟩ := dev_of_not_fits hfits
    rw [parseFileList_panic hno]
    constructor
    · rintro ⟨⟩
      exact ⟨rfl, rfl, hno⟩
    · rintro ⟨rfl, -, -⟩
      rfl

/-! ## All of them -/

/-- **The parsers are safe on any bytes**, and refuse a message only as
documented. -/
theorem parsers_safe : ParsersSafe profile data := by
  constructor
  case response => exact ⟨_, parseResponse_eq data, none_iff_refused⟩
  case fileHeader =>
    refine ⟨_, parseFileHeader_eq data, ?_⟩
    rw [← ite_not, none_iff_refused, not_and_or, Nat.not_le]
  case audioSlices =>
    refine ⟨_, parseAudioSlices_eq data, ?_, fun _ => length_encryptedChunk⟩
    rw [audioSlicesOf, List.length_map, List.length_range]
  case fileList => exact parseFileList_none_iff profile data
  case fileListPanic => exact parseFileList_error_iff profile data
  case ecdhResponse => exact ⟨_, parseEcdhResponse_eq data, none_iff_refused⟩

end MicRs
