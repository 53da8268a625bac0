import MicRs.Transfer.Processed

/-!
# Gaps between slices

A download warns when a slice is further ahead than the one after the last, but
not behind sequence number 0, which the loop also uses for no slice at all, and
by a sum that wraps behind the last number of all. `downloadFile_gaps_iff` says
for which slices the warnings are right.
-/

namespace MicRs

open StateFrame

/-! ## Neighbours in a list -/

/-- What `f` gives for the neighbours in a list whose first element is `a`. -/
def overPairs {α β : Type} (f : α → α → List β) : α → List α → List β
  | _, [] => []
  | a, b :: bs => f a b ++ overPairs f b bs

theorem forall_overPairs {α β : Type} {f : α → α → List β} {p : β → Prop}
    (h : ∀ a b, ∀ x ∈ f a b, p x) (a : α) (bs : List α) :
    ∀ x ∈ overPairs f a bs, p x := by
  induction bs generalizing a with
  | nil => simp [overPairs]
  | cons b bs ih =>
      intro x hx
      rcases List.mem_append.mp hx with hx | hx
      · exact h a b x hx
      · exact ih b x hx

/-! ## Warnings that are due and warnings that are logged -/

/-- The warning due between two sequence numbers: one exactly if a number
between them is missing. -/
def gapBetween (a b : UInt32) : List GapWarning :=
  if a.toNat + 1 < b.toNat then [⟨a + 1, b⟩] else []

/-- The warnings due over a list of sequence numbers. -/
def gapsIn : List UInt32 → List GapWarning
  | [] => []
  | a :: seqs => overPairs gapBetween a seqs

/-- What the loop logs at `b` while `last_seq` is `a`. -/
def gapLogged (a b : UInt32) : List GapWarning :=
  if b > a + 1 ∧ a > 0 then [⟨a + 1, b⟩] else []

/-- Neighbours between which the loop sees a gap exactly if there is one. -/
def GapSeen (a b : UInt32) : Prop :=
  (a = 0 → b ≤ 1) ∧ (a = 4294967295 → b = 0)

instance (a b : UInt32) : Decidable (GapSeen a b) :=
  inferInstanceAs (Decidable (_ ∧ _))

theorem gapLogged_of_seen {a b : UInt32} (h : GapSeen a b) :
    gapLogged a b = gapBetween a b := by
  obtain ⟨hzero, hlast⟩ := h
  have hcond : (b > a + 1 ∧ a > 0) ↔ a.toNat + 1 < b.toNat := by
    simp only [GT.gt, UInt32.lt_iff_toNat_lt, UInt32.le_iff_toNat_le,
      ← UInt32.toNat_inj, UInt32.toNat_add, UInt32.reduceToNat] at *
    have := a.toNat_lt
    omega
  simp only [gapLogged, gapBetween, hcond]

/-- Behind number 0 nothing is logged. -/
theorem gapLogged_zero (b : UInt32) : gapLogged 0 b = [] := by
  simp [gapLogged]

theorem gapBetween_zero {b : UInt32} (h : 1 < b) :
    gapBetween 0 b = [⟨1, b⟩] := by
  have hlt : (0 : UInt32).toNat + 1 < b.toNat := UInt32.lt_iff_toNat_lt.mp h
  rw [gapBetween, if_pos hlt]
  rfl

/-- Behind the last number of all everything but number 0 is logged. -/
theorem gapLogged_last {b : UInt32} (h : b ≠ 0) :
    gapLogged 4294967295 b = [⟨0, b⟩] := by
  have hpos : b > 4294967295 + 1 := UInt32.pos_iff_ne_zero.mpr h
  rw [gapLogged, if_pos ⟨hpos, by decide⟩]
  rfl

theorem gapBetween_last (b : UInt32) : gapBetween 4294967295 b = [] := by
  have hlt := b.toNat_lt
  have hno : ¬ (4294967295 : UInt32).toNat + 1 < b.toNat := by
    simp only [UInt32.reduceToNat]
    omega
  rw [gapBetween, if_neg hno]

theorem not_gapSeen {a b : UInt32} (h : ¬ GapSeen a b) :
    (a = 0 ∧ 1 < b) ∨ (a = 4294967295 ∧ b ≠ 0) := by
  unfold GapSeen at h
  rw [not_and_or, Classical.not_imp, Classical.not_imp, UInt32.not_le] at h
  exact h

/-- A warning that is due never expects number 0. -/
theorem expected_of_gapBetween (a : UInt32) (seqs : List UInt32) :
    ∀ warning ∈ overPairs gapBetween a seqs, warning.expected ≠ 0 := by
  apply forall_overPairs
  intro a b warning hwarning
  unfold gapBetween at hwarning
  split at hwarning
  · next hlt =>
      rw [List.mem_singleton.mp hwarning]
      intro hzero
      have hsum := congrArg UInt32.toNat hzero
      have hb := b.toNat_lt
      simp only [UInt32.toNat_add, UInt32.reduceToNat] at hsum
      omega
  · cases hwarning

/-- Of the warnings that expect a number but 0, no more are logged than due. -/
theorem count_gapLogged_le (a : UInt32) (seqs : List UInt32) :
    (overPairs gapLogged a seqs).countP (fun warning => warning.expected ≠ 0) ≤
      (overPairs gapBetween a seqs).length := by
  induction seqs generalizing a with
  | nil => exact Nat.le_refl 0
  | cons b seqs ih =>
      have hpair : (gapLogged a b).countP (fun warning => warning.expected ≠ 0) ≤
          (gapBetween a b).length := by
        by_cases hseen : GapSeen a b
        · rw [gapLogged_of_seen hseen]
          exact List.countP_le_length
        · rcases not_gapSeen hseen with ⟨rfl, -⟩ | ⟨rfl, hb⟩
          · rw [gapLogged_zero]
            exact Nat.zero_le _
          · rw [gapLogged_last hb]
            exact Nat.zero_le _
      rw [overPairs, overPairs, List.countP_append, List.length_append]
      exact Nat.add_le_add hpair (ih b)

/-- **The warnings logged are those due exactly if every gap is seen**; by
induction over the numbers. A warning that is missed cannot be made up for by
another one, since none of the others expects number 1. -/
theorem overPairs_gapLogged_iff (a : UInt32) (seqs : List UInt32) :
    overPairs gapLogged a seqs = overPairs gapBetween a seqs ↔
      List.IsChain GapSeen (a :: seqs) := by
  induction seqs generalizing a with
  | nil => simp [overPairs]
  | cons b seqs ih =>
      rw [List.isChain_cons_cons, overPairs, overPairs]
      by_cases hseen : GapSeen a b
      · rw [gapLogged_of_seen hseen, List.append_cancel_left_eq, ih]
        simp [hseen]
      · simp only [hseen, false_and, iff_false]
        intro heq
        rcases not_gapSeen hseen with ⟨rfl, hb⟩ | ⟨rfl, hb⟩
        · rw [gapLogged_zero, gapBetween_zero hb, List.nil_append,
            List.singleton_append] at heq
          have hcount := count_gapLogged_le b seqs
          have hall : (overPairs gapBetween b seqs).countP
              (fun warning => warning.expected ≠ 0) =
              (overPairs gapBetween b seqs).length := by
            rw [List.countP_eq_length]
            simpa using expected_of_gapBetween b seqs
          rw [heq, List.countP_cons, hall] at hcount
          simp at hcount
        · rw [gapLogged_last hb, gapBetween_last, List.nil_append,
            List.singleton_append] at heq
          refine expected_of_gapBetween b seqs ⟨0, b⟩ ?_ rfl
          rw [← heq]
          exact List.mem_cons_self

/-! ## What the loop logs -/

variable (C : Ciphers)

theorem Log.accept_warnings (fileId : UInt32) (hdr : FileHeader) (st : Transfer)
    (log : Log) (slice : AudioSlice) :
    (log.accept fileId hdr st slice).warnings =
      log.warnings ++ gapLogged st.lastSeq slice.sequenceNumber := by
  unfold Log.accept gapLogged
  split
  · rfl
  · rw [List.append_nil]

/-- The warnings over a list of slices, by induction over it. -/
theorem acceptAll_warnings (fileId : UInt32) (hdr : FileHeader)
    (fileKey : Vector UInt8 32) (slices : List AudioSlice) (st : Transfer)
    (log : Log) :
    (acceptAll C fileId hdr fileKey (st, log) slices).2.warnings =
      log.warnings ++ overPairs gapLogged st.lastSeq
        (slices.map AudioSlice.sequenceNumber) := by
  induction slices generalizing st log with
  | nil => simp [acceptAll, overPairs]
  | cons slice slices ih =>
      have hrest := ih (st.accept C hdr fileKey slice)
        (log.accept fileId hdr st slice)
      rw [Log.accept_warnings, List.append_assoc] at hrest
      exact hrest

/-! ## The download -/

/-- **The warnings of a download**, however it ends. -/
theorem downloadFile_warnings {profile : Profile} {env : Env} {fileId : UInt32}
    {sessionKey fileKey : Vector UInt8 32} {outputDir : Path} {w : World}
    {data : List UInt8} {rest : List Delivery}
    (h : Begins C env sessionKey w data rest fileKey) :
    (finalState ((downloadFile C profile env fileId sessionKey outputDir).run
      w)).log.warnings =
      w.log.warnings ++ overPairs gapLogged 0
        ((processedSlices profile 0 (deliveredSlices rest)).map
          AudioSlice.sequenceNumber) := by
  rw [(downloadFile_log C h).2, acceptAll_warnings]
  rfl

/-- **When a download reports its gaps**: its warnings are those due between the
slices it goes through, one for each pair of neighbours with a number missing
between them, exactly if only 0 or 1 comes after number 0 and only 0 after the
last number of all. -/
theorem downloadFile_gaps_iff {profile : Profile} {env : Env} {fileId : UInt32}
    {sessionKey fileKey : Vector UInt8 32} {outputDir : Path} {w : World}
    {data : List UInt8} {rest : List Delivery}
    (h : Begins C env sessionKey w data rest fileKey) :
    (finalState ((downloadFile C profile env fileId sessionKey outputDir).run
      w)).log.warnings =
      w.log.warnings ++ gapsIn ((processedSlices profile 0
        (deliveredSlices rest)).map AudioSlice.sequenceNumber) ↔
      List.IsChain GapSeen ((processedSlices profile 0
        (deliveredSlices rest)).map AudioSlice.sequenceNumber) := by
  rw [downloadFile_warnings C h, List.append_cancel_left_eq]
  rcases (processedSlices profile 0 (deliveredSlices rest)).map
    AudioSlice.sequenceNumber with _ | ⟨a, seqs⟩
  · simp [overPairs, gapsIn]
  · rw [overPairs, gapLogged_zero, List.nil_append]
    exact overPairs_gapLogged_iff a seqs

/-- What arrives for slices 0 and `n`. -/
def pairTransfer (n : UInt32) : List Delivery :=
  sliceTransfer [[zeroSlice C 0 0, zeroSlice C n 0]]

theorem downloadFile_gaps_none :
    (finalState ((downloadFile sampleCiphers .dev .fine 1 zeroKey []).run
      (.connected (.notification (zeroHeader sampleCiphers 1 0) ::
        pairTransfer sampleCiphers 1)))).log.warnings =
      [] ++ gapsIn ((processedSlices .dev 0
        (deliveredSlices (pairTransfer sampleCiphers 1))).map
          AudioSlice.sequenceNumber) ↔
      List.IsChain GapSeen ((processedSlices .dev 0
        (deliveredSlices (pairTransfer sampleCiphers 1))).map
          AudioSlice.sequenceNumber) :=
  downloadFile_gaps_iff sampleCiphers (zeroWorld_begins sampleCiphers _)

/-- Every download warns of every gap, and of nothing else. -/
def GapsReported : Prop :=
  ∀ (profile : Profile) (env : Env) (fileId : UInt32)
    (sessionKey fileKey : Vector UInt8 32) (outputDir : Path) (w : World)
    (data : List UInt8) (rest : List Delivery),
  Begins C env sessionKey w data rest fileKey →
  (finalState ((downloadFile C profile env fileId sessionKey outputDir).run
    w)).log.warnings =
    w.log.warnings ++ gapsIn ((processedSlices profile 0
      (deliveredSlices rest)).map AudioSlice.sequenceNumber)

/-- **A slice lost behind number 0 is not reported**, whatever the ciphers
are. -/
theorem downloadFile_gap_unseen : ¬ ∃ C : Ciphers, GapsReported C := by
  rintro ⟨C, hclaim⟩
  have hbegins := zeroWorld_begins C [[zeroSlice C 0 0, zeroSlice C 2 0]]
  have hslices := (sliceTransfer_delivers
    [[zeroSlice C 0 0, zeroSlice C 2 0]]).1
  have hprocessed : (processedSlices .release 0 (deliveredSlices (sliceTransfer
      [[zeroSlice C 0 0, zeroSlice C 2 0]]))).map AudioSlice.sequenceNumber =
      [0, 2] := by
    rw [hslices]
    rfl
  have hgaps := hclaim .release .fine 1 zeroKey zeroKey [] _ _ _ hbegins
  rw [downloadFile_warnings C hbegins, hprocessed,
    List.append_cancel_left_eq] at hgaps
  exact absurd hgaps (by decide)

end MicRs
