import MicRs.Listing.RoundTrip
import MicRs.Session.Operations
import MicRs.Transfer.Wire

/-!
# Listing the files of a device

`list_files` returns the entries of the response that are announced and whole
(`listFiles_lists`). A response that announces more than it carries gives a
shorter list, not an error (`listFiles_shortened`).
-/

namespace MicRs

variable (profile : Profile)

/-- A listing succeeds on a 1A0E response that has a count and whose sizes do
not overflow; it is never refused for being too short. -/
theorem listFiles_returns {env : Env} {w : World} {resp : List UInt8}
    {rest : List Delivery} (hwrite : env.write = none)
    (hrx : w.rx = .notification resp :: rest)
    (hkind : IsResponse cmdTypeFile cmdGetAllFiles resp)
    (hlen : 11 ≤ resp.length)
    (hfits : profile = .release ∨ ∀ entry ∈ entriesOf resp, entry.Fits) :
    (listFiles profile env).run w = .ok ((entriesOf resp).map FileEntry.info)
      (w.afterExchange (fileListRequest 0) resp rest) := by
  have hparse := parseFileList_eq profile hfits
  rw [if_neg (Nat.not_lt.mpr hlen)] at hparse
  exact listFiles_of_response profile hwrite hrx hkind hparse

/-- **What a listing returns for a 1A0E response**: the entries that are
announced and whole, so as many as announced exactly if the response is long
enough. -/
theorem listFiles_lists {env : Env} {w : World} {resp : List UInt8}
    {rest : List Delivery} (hrx : w.rx = .notification resp :: rest)
    (hkind : IsResponse cmdTypeFile cmdGetAllFiles resp) :
    (∀ files w', (listFiles profile env).run w = .ok files w' →
      files = (entriesOf resp).map FileEntry.info ∧
      files.length = min (announcedCount resp) ((resp.length - 11) / 8) ∧
      (files.length = announcedCount resp ↔
        11 + 8 * announcedCount resp ≤ resp.length)) ∧
    (env.write = none → 11 ≤ resp.length →
      (profile = .release ∨ ∀ entry ∈ entriesOf resp, entry.Fits) →
      ∃ files w', (listFiles profile env).run w = .ok files w') := by
  constructor
  · intro files w' hrun
    obtain ⟨-, resp', rest', hrx', -, hparse, -⟩ := listFiles_ok profile hrun
    rw [hrx] at hrx'
    cases hrx'
    obtain ⟨hlen, -, rfl⟩ := parseFileList_some profile hparse
    have hcount : ((entriesOf resp).map FileEntry.info).length =
        min (announcedCount resp) ((resp.length - 11) / 8) := by
      rw [List.length_map, length_entriesOf]
      rfl
    refine ⟨rfl, hcount, ?_⟩
    rw [hcount]
    omega
  · intro hwrite hlen hfits
    exact ⟨_, _, listFiles_returns profile hwrite hrx hkind hlen hfits⟩

/-- A response that announces two files and carries one and a half. -/
def truncatedListMessage : List UInt8 :=
  message 1 cmdTypeFile cmdGetAllFiles
    ([0x02, 0x00] ++ FileEntry.encode ⟨100, 20000⟩ ++ u32ToLeBytes 200)

theorem listFiles_lists_truncated :
    (∀ files w', (listFiles .dev .fine).run
        (.connected [.notification truncatedListMessage]) = .ok files w' →
      files = (entriesOf truncatedListMessage).map FileEntry.info ∧
      files.length = min (announcedCount truncatedListMessage)
        ((truncatedListMessage.length - 11) / 8) ∧
      (files.length = announcedCount truncatedListMessage ↔
        11 + 8 * announcedCount truncatedListMessage ≤
          truncatedListMessage.length)) ∧
    (Env.fine.write = none → 11 ≤ truncatedListMessage.length →
      (Profile.dev = .release ∨
        ∀ entry ∈ entriesOf truncatedListMessage, entry.Fits) →
      ∃ files w', (listFiles .dev .fine).run
        (.connected [.notification truncatedListMessage]) = .ok files w') :=
  listFiles_lists .dev rfl (isResponse_message 1 cmdTypeFile cmdGetAllFiles _)

/-- Every list that is returned is as long as announced. -/
def NeverShortened : Prop :=
  ∀ (env : Env) (w w' : World) (files : List FileInfo) (resp : List UInt8)
    (rest : List Delivery),
  w.rx = .notification resp :: rest →
  IsResponse cmdTypeFile cmdGetAllFiles resp →
  (listFiles profile env).run w = .ok files w' →
  files.length = announcedCount resp

/-- **A truncated response is returned as a shorter list**, in every build. -/
theorem listFiles_shortened : ¬ ∃ profile, NeverShortened profile := by
  rintro ⟨profile, hclaim⟩
  have hkind : IsResponse cmdTypeFile cmdGetAllFiles truncatedListMessage :=
    isResponse_message 1 cmdTypeFile cmdGetAllFiles _
  have hfits : ∀ entry ∈ entriesOf truncatedListMessage, entry.Fits := by
    intro entry hentry
    rw [entry.fits_iff]
    revert entry
    decide
  have hrun : (listFiles profile .fine).run
      (.connected [.notification truncatedListMessage]) = _ :=
    listFiles_returns profile rfl rfl hkind (by decide) (Or.inr hfits)
  have hlength := hclaim .fine _ _ _ truncatedListMessage [] rfl hkind hrun
  rw [List.length_map, length_entriesOf] at hlength
  exact absurd hlength (by decide)

end MicRs
