import MicRs.Model.Examples
import MicRs.Transfer.Processed
import MicRs.Transfer.Reports

/-!
# Progress in percent

The callbacks that come with the crate turn a progress report into a percentage
(`readmePct`, `downloadAllPct`). Their product leaves `u32` long before the
counter does, and the size from the header bounds nothing:
`downloadFile_usable_iff` says for which runs all reports can be used.
-/

namespace MicRs

open StateFrame

/-! ## One report -/

/-- A percentage is computed without overflow and is one. -/
def PctUsable (pct : Profile → DownloadProgress → Rust UInt32)
    (p : DownloadProgress) : Prop :=
  ∀ profile, ∃ value, pct profile p = .ok value ∧
    value.toNat = p.bytesReceived.toNat * 100 / max p.totalBytes.toNat 1 ∧
    value.toNat ≤ 100

/-- A report that says the truth about `count` slices and of which the callbacks
get a percentage. -/
structure Usable (count : ℕ) (p : DownloadProgress) : Prop where
  received : p.bytesReceived.toNat = 160 * count
  bounded : p.bytesReceived ≤ p.totalBytes
  readme : PctUsable readmePct p
  downloadAll : PctUsable downloadAllPct p

/-- Part of a total is at most 100 percent of it. -/
theorem percent_le {part total : ℕ} (h : part ≤ total) :
    part * 100 / max total 1 ≤ 100 := by
  apply Nat.div_le_of_le_mul
  have hmax : total ≤ max total 1 := Nat.le_max_left total 1
  omega

section OneReport

variable {p : DownloadProgress}

/-- The product of both callbacks, where it fits. -/
theorem mulU32_hundred (profile : Profile)
    (h : p.bytesReceived.toNat * 100 < 2 ^ 32) :
    ∃ product, mulU32 profile p.bytesReceived 100 = .ok product ∧
      product.toNat = p.bytesReceived.toNat * 100 := by
  refine ⟨p.bytesReceived * 100, arith_of_fits profile _ h, ?_⟩
  rw [UInt32.toNat_mul]
  exact Nat.mod_eq_of_lt h

/-- **The percentage of the README is computed exactly if the product fits.** -/
theorem readmePct_usable_iff (hbounded : p.bytesReceived ≤ p.totalBytes) :
    PctUsable readmePct p ↔ p.bytesReceived.toNat * 100 < 2 ^ 32 := by
  constructor
  · intro h
    obtain ⟨value, hvalue, -⟩ := h .dev
    by_contra hover
    have hproduct : mulU32 .dev p.bytesReceived 100 = .error .overflow :=
      arith_of_not_fits _ hover
    unfold readmePct at hvalue
    rw [hproduct] at hvalue
    cases hvalue
  · intro h profile
    obtain ⟨product, hproduct, hnat⟩ := mulU32_hundred profile h
    have hvalue : (product / max p.totalBytes 1).toNat =
        p.bytesReceived.toNat * 100 / max p.totalBytes.toNat 1 := by
      rw [UInt32.toNat_div, hnat, UInt32.toNat_max]
      rfl
    have hpct : readmePct profile p = .ok (product / max p.totalBytes 1) := by
      unfold readmePct
      rw [hproduct]
      rfl
    refine ⟨_, hpct, hvalue, ?_⟩
    rw [hvalue]
    exact percent_le hbounded

/-- As long as the total is not exceeded, `download_all.rs` computes the
percentage of the README. -/
theorem downloadAllPct_eq (profile : Profile)
    (hbounded : p.bytesReceived ≤ p.totalBytes) :
    downloadAllPct profile p = readmePct profile p := by
  by_cases htotal : p.totalBytes > 0
  · have hmax : max p.totalBytes 1 = p.totalBytes := by
      rw [← UInt32.toNat_inj, UInt32.toNat_max]
      exact Nat.max_eq_left (UInt32.lt_iff_toNat_lt.mp htotal)
    unfold downloadAllPct readmePct
    rw [if_pos htotal, hmax]
  · have hzero : p.totalBytes = 0 :=
      UInt32.le_zero_iff.mp (UInt32.not_lt.mp htotal)
    have hbytes : p.bytesReceived = 0 := by
      rw [hzero] at hbounded
      exact UInt32.le_zero_iff.mp hbounded
    unfold downloadAllPct readmePct
    rw [if_neg htotal, hbytes, hzero]
    cases profile <;> rfl

/-- **When a report can be used**: the bytes of the `count` slices do not exceed
the size from the header, and a hundred times as many fit in `u32`. -/
theorem usable_iff {count : ℕ}
    (hbytes : p.bytesReceived = UInt32.ofNat (160 * count)) :
    Usable count p ↔ 160 * count ≤ p.totalBytes.toNat ∧ count ≤ 268435 := by
  constructor
  · intro h
    have hreceived := h.received
    have hbounded := UInt32.le_iff_toNat_le.mp h.bounded
    have hfits := (readmePct_usable_iff h.bounded).mp h.readme
    rw [hreceived] at hbounded hfits
    exact ⟨hbounded, by omega⟩
  · rintro ⟨htotal, hcount⟩
    have hreceived : p.bytesReceived.toNat = 160 * count := by
      have hlt := p.totalBytes.toNat_lt
      rw [hbytes, UInt32.toNat_ofNat', Nat.mod_eq_of_lt (by omega)]
    have hbounded : p.bytesReceived ≤ p.totalBytes := by
      rw [UInt32.le_iff_toNat_le, hreceived]
      exact htotal
    have hreadme : PctUsable readmePct p :=
      (readmePct_usable_iff hbounded).mpr (by omega)
    refine ⟨hreceived, hbounded, hreadme, fun profile => ?_⟩
    rw [downloadAllPct_eq profile hbounded]
    exact hreadme profile

end OneReport

/-! ## The reports of a run -/

variable (C : Ciphers)

/-- The reports a run adds to those in the log. -/
def newReports (profile : Profile) (env : Env) (fileId : UInt32)
    (sessionKey : Vector UInt8 32) (outputDir : Path) (w : World) :
    List DownloadProgress :=
  (finalState ((downloadFile C profile env fileId sessionKey outputDir).run
    w)).log.reports.drop w.log.reports.length

/-- There is one report for each slice that is accepted, and each of them can be
used. -/
structure ReportsUsable (profile : Profile) (env : Env) (fileId : UInt32)
    (sessionKey : Vector UInt8 32) (outputDir : Path) (w : World) : Prop where
  slices : ∀ data rest fileKey, Begins C env sessionKey w data rest fileKey →
    (newReports C profile env fileId sessionKey outputDir w).map
        DownloadProgress.sequence =
      (acceptedSlices profile 0 (deliveredSlices rest)).map
        AudioSlice.sequenceNumber
  usable : ∀ i p,
    (newReports C profile env fileId sessionKey outputDir w)[i]? = some p →
    Usable (i + 1) p

section OneRun

variable {profile : Profile} {env : Env} {fileId : UInt32}
  {sessionKey : Vector UInt8 32} {outputDir : Path} {w : World}

theorem newReports_begins {fileKey : Vector UInt8 32} {data : List UInt8}
    {rest : List Delivery} (h : Begins C env sessionKey w data rest fileKey) :
    newReports C profile env fileId sessionKey outputDir w =
      (acceptedSlices profile 0 (deliveredSlices rest)).mapIdx fun i slice =>
        progressReport fileId (.read data) (i + 1) slice := by
  have hlen : ∀ slice ∈ acceptedSlices profile 0 (deliveredSlices rest),
      slice.encryptedChunk.length = 160 := fun slice hslice =>
    length_chunk_of_delivered rest slice
      ((acceptedSlices_isPrefix profile 0 _).subset hslice)
  unfold newReports
  rw [(downloadFile_log C h).1, acceptAll_reports C fileId _ _ 0 hlen rfl,
    List.drop_left]
  simp only [Nat.zero_add]

theorem newReports_idle
    (h : ¬ ∃ data rest fileKey, Begins C env sessionKey w data rest fileKey) :
    newReports C profile env fileId sessionKey outputDir w = [] := by
  unfold newReports
  rw [downloadFile_log_idle C fileId outputDir h, List.drop_length]

/-- **There is one report for each slice that is accepted.** -/
theorem newReports_sequences {fileKey : Vector UInt8 32} {data : List UInt8}
    {rest : List Delivery} (h : Begins C env sessionKey w data rest fileKey) :
    (newReports C profile env fileId sessionKey outputDir w).map
        DownloadProgress.sequence =
      (acceptedSlices profile 0 (deliveredSlices rest)).map
        AudioSlice.sequenceNumber := by
  rw [newReports_begins C h]
  apply List.ext_getElem?
  intro i
  simp [progressReport, Function.comp_def]

/-- **All reports of a download can be used exactly if the last one can.** -/
theorem reportsUsable_begins_iff {fileKey : Vector UInt8 32} {data : List UInt8}
    {rest : List Delivery} (h : Begins C env sessionKey w data rest fileKey) :
    ReportsUsable C profile env fileId sessionKey outputDir w ↔
      160 * (acceptedSlices profile 0 (deliveredSlices rest)).length ≤
          (FileHeader.read data).size.toNat ∧
        (acceptedSlices profile 0 (deliveredSlices rest)).length ≤ 268435 := by
  have hreports : newReports C profile env fileId sessionKey outputDir w = _ :=
    newReports_begins C h
  set accepted := acceptedSlices profile 0 (deliveredSlices rest)
  constructor
  · intro husable
    rcases hlen : accepted.length with _ | n
    · exact ⟨Nat.zero_le _, Nat.zero_le _⟩
    · have hlast : n < accepted.length := by omega
      have hreport := husable.usable n
        (progressReport fileId (.read data) (n + 1) accepted[n])
        (by rw [hreports, List.getElem?_mapIdx, List.getElem?_eq_getElem hlast]; rfl)
      exact (usable_iff rfl).mp hreport
  · rintro ⟨htotal, hcount⟩
    refine ⟨fun _ _ _ => newReports_sequences C, fun i p hp => ?_⟩
    rw [hreports, List.getElem?_mapIdx, Option.map_eq_some_iff] at hp
    obtain ⟨slice, hslice, rfl⟩ := hp
    have hi : i < accepted.length := (List.getElem?_eq_some_iff.mp hslice).1
    have hbelow : 160 * (i + 1) ≤ (FileHeader.read data).size.toNat := by omega
    exact (usable_iff rfl).mpr ⟨hbelow, by omega⟩

end OneRun

/-- **When the progress of a download can be used**: the slices it accepts are
no more than the size from the header gives, and at most 268,435. -/
theorem downloadFile_usable_iff (profile : Profile) (env : Env)
    (fileId : UInt32) (sessionKey : Vector UInt8 32) (outputDir : Path)
    (w : World) :
    ReportsUsable C profile env fileId sessionKey outputDir w ↔
      ∀ data rest fileKey, Begins C env sessionKey w data rest fileKey →
        160 * (acceptedSlices profile 0 (deliveredSlices rest)).length ≤
            (FileHeader.read data).size.toNat ∧
          (acceptedSlices profile 0 (deliveredSlices rest)).length ≤ 268435 := by
  constructor
  · intro husable data rest fileKey hbegins
    exact (reportsUsable_begins_iff C hbegins).mp husable
  · intro hcond
    by_cases hbegins :
        ∃ data rest fileKey, Begins C env sessionKey w data rest fileKey
    · obtain ⟨data, rest, fileKey, hbegins⟩ := hbegins
      exact (reportsUsable_begins_iff C hbegins).mpr (hcond _ _ _ hbegins)
    · refine ⟨fun data rest fileKey h => absurd ⟨data, rest, fileKey, h⟩ hbegins,
        fun i p hp => ?_⟩
      rw [newReports_idle C hbegins] at hp
      cases hp

/-! ## A long recording -/

/-- A recording of `n` frames, one slice to a message. -/
def recording (n : ℕ) : List Delivery :=
  sliceTransfer ((List.range n).map fun i => [zeroSlice C (UInt32.ofNat i) 0])

theorem length_deliveredSlices_recording (n : ℕ) :
    (deliveredSlices (recording C n)).length = n := by
  unfold recording
  rw [(sliceTransfer_delivers _).1, List.length_map, List.length_flatten,
    List.map_map]
  simp [Function.comp_def]

/-- **Percentages overflow in a recording of an hour and a half**, though it is
as long as its header says, whatever the ciphers are. -/
theorem downloadFile_pct_overflows : ¬ ∃ C : Ciphers,
    ∀ (profile : Profile) (env : Env) (fileId : UInt32)
      (sessionKey : Vector UInt8 32) (outputDir : Path) (w : World),
      ReportsUsable C profile env fileId sessionKey outputDir w := by
  rintro ⟨C, husable⟩
  have hbegins : Begins C .fine zeroKey
      (.connected (.notification (headerMessage C zeroKey 1 42949760 zeroKey
        zeroNonce zeroNonce 0) :: recording C 268436)) _ (recording C 268436)
      zeroKey :=
    (isHonestHeader_headerMessage C _ _ _ _ _ _).begins rfl rfl
  have hcount := ((reportsUsable_begins_iff C hbegins).mp
    (husable .release .fine 1 zeroKey [] _)).2
  rw [acceptedSlices_release, length_deliveredSlices_recording] at hcount
  exact absurd hcount (by decide)

end MicRs
