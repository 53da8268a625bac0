import MicRs.Device.Programs
import MicRs.Transfer.Progress

/-!
# When the programs succeed

A program with a device that keeps to the protocol ends well exactly if no call
fails it and nothing overflows: in a build with overflow checks a recording may
be too long for the file list or for the percentages of a progress callback.
What the program has done to the recordings and the files is then known to the
byte: `download_all.rs` leaves a file of every recording (`downloadAll_ok_iff`),
the example of the README moves the first recording to the disk
(`readmeExample_ok_iff`), and `mike download` takes one (`mikeDownload_ok_iff`).
-/

namespace MicRs

open StateFrame Simulation

/-! ## Progress callbacks -/

theorem forM_rust_ok_iff {α : Type} (f : α → Rust Unit) (xs : List α) :
    forM xs f = .ok () ↔ ∀ x ∈ xs, f x = .ok () := by
  induction xs with
  | nil => exact ⟨fun _ x hx => absurd hx List.not_mem_nil, fun _ => rfl⟩
  | cons x xs ih =>
      rw [List.forM_cons, List.forall_mem_cons, ← ih]
      rcases f x with p | u
      · simp [bind, Except.bind]
      · simp [bind, Except.bind]

/-- The product of the callbacks, in a build with overflow checks. -/
theorem readmePct_ok_iff (profile : Profile) (p : DownloadProgress) :
    (∃ value, readmePct profile p = .ok value) ↔
      profile = .release ∨ p.bytesReceived.toNat * 100 < 2 ^ 32 := by
  unfold readmePct
  by_cases hfits : p.bytesReceived.toNat * 100 < 2 ^ 32
  · have hproduct : mulU32 profile p.bytesReceived 100 =
        .ok (p.bytesReceived * 100) := arith_of_fits profile _ hfits
    rw [hproduct]
    exact ⟨fun _ => Or.inr hfits, fun _ => ⟨_, rfl⟩⟩
  · cases profile with
    | dev =>
        have hproduct : mulU32 .dev p.bytesReceived 100 = .error .overflow :=
          arith_of_not_fits _ hfits
        rw [hproduct]
        simpa [bind, Except.bind] using Nat.not_lt.mp hfits
    | release => exact ⟨fun _ => Or.inl rfl, fun _ => ⟨_, rfl⟩⟩

theorem readmeProgress_ok_iff (profile : Profile) (p : DownloadProgress) :
    readmeProgress profile p = .ok () ↔
      profile = .release ∨ p.bytesReceived.toNat * 100 < 2 ^ 32 := by
  rw [← readmePct_ok_iff, readmeProgress]
  rcases readmePct profile p with e | value
  · simp [bind, Except.bind]
  · simp [bind, Except.bind, pure, Except.pure]

/-- What a callback of the crate makes of a whole recording: its last report has
the largest product. -/
theorem reportTo_readme_iff (profile : Profile) (r : Recording) :
    r.reportTo (readmeProgress profile) = .ok () ↔
      profile = .release ∨ r.frames.length ≤ 268435 := by
  have hnumbered := r.numbered
  rw [Recording.reportTo, forM_rust_ok_iff]
  simp only [readmeProgress_ok_iff, Recording.reports, List.forall_mem_map,
    List.mem_range, UInt32.toNat_ofNat']
  constructor
  · intro h
    by_contra hlong
    rw [not_or] at hlong
    have hlast := (h 268435 (by omega)).resolve_left hlong.1
    omega
  · rintro (hrelease | hshort) i hi
    · exact Or.inl hrelease
    · right
      rw [Nat.mod_eq_of_lt (by omega)]
      omega

/-- Both callbacks make the same of it: no report exceeds its total. -/
theorem reportTo_downloadAll_iff (profile : Profile) (r : Recording) :
    r.reportTo (downloadAllProgress profile) = .ok () ↔
      profile = .release ∨ r.frames.length ≤ 268435 := by
  have hnumbered := r.numbered
  rw [← reportTo_readme_iff, Recording.reportTo, Recording.reportTo,
    forM_rust_ok_iff, forM_rust_ok_iff]
  refine forall₂_congr fun p hp => ?_
  simp only [Recording.reports, List.mem_map, List.mem_range] at hp
  obtain ⟨i, hi, rfl⟩ := hp
  rw [downloadAllProgress, readmeProgress, downloadAllPct_eq profile]
  simp only [UInt32.le_iff_toNat_le, UInt32.toNat_ofNat']
  rw [Nat.mod_eq_of_lt (by omega), Nat.mod_eq_of_lt (by omega)]
  omega

/-! ## Calls that return -/

theorem storeHandshake_ok_iff {env : Env} {s s' : Store} {u : Unit} :
    (storeHandshake env).run s = .ok u s' ↔
      env.write = none ∧ s' = s.pair := by
  rw [storeHandshake_run]
  rcases env.write with _ | e
  · simp [eq_comm]
  · simp

theorem storeListFiles_ok_iff {profile : Profile} {env : Env}
    {files : List FileInfo} {s s' : Store} :
    (storeListFiles profile env).run s = .ok files s' ↔
      env.write = none ∧
      (profile = .release ∨ ∀ r ∈ s.recordings, r.Listable) ∧
      files = s.recordings.map Recording.info ∧ s' = s := by
  rw [storeListFiles_run]
  rcases env.write with _ | e
  · by_cases hlistable : profile = .release ∨ ∀ r ∈ s.recordings, r.Listable
    · simp only [if_pos hlistable]
      simp [hlistable, eq_comm]
    · simp only [if_neg hlistable]
      simp [hlistable]
  · simp

theorem storeDelete_ok_iff {env : Env} {fileId : UInt32} {s s' : Store}
    {u : Unit} : (storeDelete env fileId).run s = .ok u s' ↔
      env.write = none ∧ (∃ r ∈ s.recordings, r.id = fileId) ∧
        s' = s.delete fileId := by
  rw [storeDelete_run]
  rcases env.write with _ | e
  · rcases hfind : s.find fileId with _ | r
    · have hgone := (s.find_eq_none_iff fileId).mp hfind
      simpa using fun r hr hid => absurd hid (hgone r hr)
    · have hthere := (s.find_eq_some_iff fileId r).mp hfind
      simpa [eq_comm] using fun _ => ⟨r, hthere.1, hthere.2.symm⟩
  · simp

/-! ## All downloads -/

/-- The files of several recordings, one after the other. -/
def Store.putAll (outputDir : Path) (s : Store) (rs : List Recording) : Store :=
  rs.foldl (fun s r => s.put (opusPath outputDir r.id) r.container) s

theorem Store.putAll_cons (outputDir : Path) (s : Store) (r : Recording)
    (rs : List Recording) : s.putAll outputDir (r :: rs) =
      (s.put (opusPath outputDir r.id) r.container).putAll outputDir rs := rfl

theorem Store.putAll_recordings (outputDir : Path) (s : Store)
    (rs : List Recording) :
    (s.putAll outputDir rs).recordings = s.recordings := by
  induction rs generalizing s with
  | nil => rfl
  | cons r rs ih => rw [putAll_cons, ih]; rfl

/-- Nothing else is written. -/
theorem Store.putAll_other {outputDir path : Path} (s : Store)
    {rs : List Recording} (h : ∀ r ∈ rs, path ≠ opusPath outputDir r.id) :
    (s.putAll outputDir rs).disk path = s.disk path := by
  induction rs generalizing s with
  | nil => rfl
  | cons r rs ih =>
      rw [List.forall_mem_cons] at h
      rw [putAll_cons, ih _ h.2]
      exact Function.update_of_ne h.1 _ _

/-- Recordings with different ids do not get in each other's way. -/
theorem Store.putAll_file (outputDir : Path) (s : Store) {rs : List Recording}
    (hdistinct : (rs.map Recording.id).Nodup) :
    ∀ r ∈ rs, (s.putAll outputDir rs).disk (opusPath outputDir r.id) =
      some r.container := by
  induction rs generalizing s with
  | nil => exact fun r hr => absurd hr List.not_mem_nil
  | cons r rs ih =>
      rw [List.map_cons, List.nodup_cons] at hdistinct
      intro a ha
      rw [putAll_cons]
      rcases List.mem_cons.mp ha with rfl | ha
      · rw [putAll_other]
        · exact Function.update_self _ _ _
        · intro b hb hpath
          rw [(opusPath_inj hpath).2] at hdistinct
          exact hdistinct.1 (List.mem_map_of_mem hb)
      · exact ih _ hdistinct.2 a ha

/-- A download of a recording that is there. -/
theorem storeDownload_here_iff {progress : Callback}
    {env : Env} {r : Recording} {outputDir : Path} {s s' : Store}
    (hpaired : s.paired = true) (hr : r ∈ s.recordings) :
    (∃ path, (storeDownload progress env r.id outputDir).run s =
        .ok path s') ↔
      env = .fine ∧ r.reportTo progress = .ok () ∧
        s' = s.put (opusPath outputDir r.id) r.container := by
  simp only [storeDownload_ok_iff]
  constructor
  · rintro ⟨path, -, henv, rfl, a, ha, hid, hprogress, hput⟩
    have hsame : a = r := List.inj_on_of_nodup_map s.distinct ha hr hid
    rw [hsame] at hprogress hput
    exact ⟨henv, hprogress, hput⟩
  · rintro ⟨henv, hprogress, hput⟩
    exact ⟨_, hpaired, henv, rfl, r, hr, rfl, hprogress, hput⟩

/-- **A loop of downloads** returns exactly if each of them does, and has then
stored all the files; by induction over the recordings, with `k` of them behind
it. -/
theorem forM_storeDownload_ok_iff (progress : Callback)
    (envs : ℕ → Env) (outputDir : Path) {rs : List Recording} {k : ℕ}
    {s s' : Store} {u : PUnit} (hpaired : s.paired = true)
    (hrs : ∀ r ∈ rs, r ∈ s.recordings) :
    (forM ((rs.map Recording.info).zipIdx k) fun ((f, i) : FileInfo × ℕ) => do
        let _ ← storeDownload progress (envs i) f.fileId outputDir).run s =
          .ok u s' ↔
      (∀ i r, rs[i]? = some r →
        envs (k + i) = .fine ∧ r.reportTo progress = .ok ()) ∧
      s' = s.putAll outputDir rs := by
  induction rs generalizing k s with
  | nil => simp [Store.putAll, eq_comm]
  | cons r rs ih =>
      rw [List.forall_mem_cons] at hrs
      rw [List.map_cons, List.zipIdx_cons, List.forM_cons, run_bind_ok_iff]
      have hstore := @storeDownload_here_iff progress (envs k) r outputDir s
      constructor
      · rintro ⟨u₁, s₁, hfirst, hrest⟩
        obtain ⟨path, s₂, hstored, hdone⟩ := run_bind_ok_iff.mp hfirst
        cases hdone
        obtain ⟨henv, hprogress, rfl⟩ :=
          (hstore hpaired hrs.1).mp ⟨path, hstored⟩
        obtain ⟨hothers, rfl⟩ := (ih (s := s.put _ _) hpaired hrs.2).mp hrest
        refine ⟨?_, rfl⟩
        rintro (_ | i) a ha
        · cases ha
          exact ⟨henv, hprogress⟩
        · have hnext := hothers i a ha
          rwa [Nat.add_assoc, Nat.add_comm 1] at hnext
      · rintro ⟨hall, rfl⟩
        obtain ⟨henv, hprogress⟩ := hall 0 r rfl
        obtain ⟨path, hstored⟩ :=
          (hstore hpaired hrs.1).mpr ⟨henv, hprogress, rfl⟩
        refine ⟨⟨⟩, _, run_bind_ok_iff.mpr ⟨path, _, hstored, rfl⟩, ?_⟩
        refine (ih (s := s.put _ _) hpaired hrs.2).mpr ⟨fun i a ha => ?_, rfl⟩
        have hnext := hall (i + 1) a ha
        rwa [Nat.add_comm i, ← Nat.add_assoc] at hnext

/-! ## The programs -/

section Programs

variable {Secret : Type} (env : ProgramEnv) (profile : Profile)
  (secret : Secret)

theorem storeDownloadEach_ok_iff {s s' : Store} {u : Unit}
    (hpaired : s.paired = true) :
    (downloadEach (storeClient profile Secret) env profile
        (s.recordings.map Recording.info)).run s = .ok u s' ↔
      env.createDirAll = none ∧
      (∀ i r, s.recordings[i]? = some r → env.downloadFile i = .fine ∧
        (profile = .release ∨ r.frames.length ≤ 268435)) ∧
      env.disconnect = none ∧
      s' = s.putAll [".", "recordings"] s.recordings := by
  have hloop := fun s₁ (u : PUnit) => @forM_storeDownload_ok_iff
    (downloadAllProgress profile) env.downloadFile [".", "recordings"]
    s.recordings 0 s s₁ u hpaired fun _ => id
  simp only [Nat.zero_add, reportTo_downloadAll_iff] at hloop
  simp only [downloadEach, storeClient, run_bind_ok_iff, ioCall_ok_iff,
    bleCall_ok_iff]
  constructor
  · rintro ⟨-, _, ⟨hcreate, rfl⟩, u₁, s₁, hstored, hdisconnect, rfl⟩
    obtain ⟨hall, rfl⟩ := (hloop _ _).mp hstored
    exact ⟨hcreate, hall, hdisconnect, rfl⟩
  · rintro ⟨hcreate, hall, hdisconnect, rfl⟩
    exact ⟨(), s, ⟨hcreate, rfl⟩, ⟨⟩, _, (hloop _ _).mpr ⟨hall, rfl⟩,
      hdisconnect, rfl⟩

/-- `download_all.rs` behind the list of files. -/
theorem storeListed_ok_iff {s s' : Store} {u : Unit}
    (hpaired : s.paired = true) :
    (if (s.recordings.map Recording.info).isEmpty then
        (bleCall env.disconnect : EStateM Fault Store Unit)
      else downloadEach (storeClient profile Secret) env profile
        (s.recordings.map Recording.info)).run s = .ok u s' ↔
      (s.recordings ≠ [] → env.createDirAll = none) ∧
      (∀ i r, s.recordings[i]? = some r → env.downloadFile i = .fine ∧
        (profile = .release ∨ r.frames.length ≤ 268435)) ∧
      env.disconnect = none ∧
      s' = s.putAll [".", "recordings"] s.recordings := by
  by_cases hempty : (s.recordings.map Recording.info).isEmpty = true
  · have hnil : s.recordings = [] := by simpa using hempty
    rw [if_pos hempty, bleCall_ok_iff]
    simp [hnil, Store.putAll]
  · have hsome : s.recordings ≠ [] := by simpa using hempty
    rw [if_neg hempty, storeDownloadEach_ok_iff env profile hpaired]
    simp [hsome]

/-- A handshake and a listing in front of the rest. -/
theorem storeListing_bind_ok_iff {α : Type} {s s' : Store} {a : α}
    {k : List FileInfo → EStateM Fault Store α} :
    (do
      (storeClient profile Secret).handshake env.handshake secret
      let files ← (storeClient profile Secret).listFiles env.listFiles
      k files).run s = .ok a s' ↔
      env.handshake.write = none ∧ env.listFiles.write = none ∧
      (profile = .release ∨ ∀ r ∈ s.recordings, r.Listable) ∧
      (k (s.recordings.map Recording.info)).run s.pair =
        .ok a s' := by
  rw [run_bind_ok_iff]
  constructor
  · rintro ⟨_, _, hpair, h⟩
    obtain ⟨hhandshake, rfl⟩ := storeHandshake_ok_iff.mp hpair
    obtain ⟨_, _, hfiles, h⟩ := run_bind_ok_iff.mp h
    obtain ⟨hlist, hlistable, rfl, rfl⟩ := storeListFiles_ok_iff.mp hfiles
    exact ⟨hhandshake, hlist, hlistable, h⟩
  · rintro ⟨hhandshake, hlist, hlistable, h⟩
    exact ⟨(), _, storeHandshake_ok_iff.mpr ⟨hhandshake, rfl⟩,
      run_bind_ok_iff.mpr ⟨_, _, storeListFiles_ok_iff.mpr
        ⟨hlist, hlistable, rfl, rfl⟩, h⟩⟩

theorem storeDownloadAll_ok_iff {s s' : Store} {u : Unit} :
    (downloadAll (storeClient profile Secret) env profile secret).run s =
        .ok u s' ↔
      (scanDevices env.bluetooth = .ok [] ∧ s' = s) ∨
      (∃ device, env.bluetooth.Reaches device) ∧
        env.handshake.write = none ∧ env.listFiles.write = none ∧
        (profile = .release ∨ ∀ r ∈ s.recordings, r.Listable) ∧
        (s.recordings ≠ [] → env.createDirAll = none) ∧
        (∀ i r, s.recordings[i]? = some r → env.downloadFile i = .fine ∧
          (profile = .release ∨ r.frames.length ≤ 268435)) ∧
        env.disconnect = none ∧
        s' = s.pair.putAll [".", "recordings"] s.recordings := by
  have hconnect : (storeClient profile Secret).connect =
      connectThen Store.connected := rfl
  refine (downloadAll_returns_iff hconnect profile secret).trans ?_
  refine or_congr_right (and_congr_right fun _ => ?_)
  refine (storeListing_bind_ok_iff env profile secret).trans ?_
  refine and_congr_right fun _ => and_congr_right fun _ =>
    and_congr_right fun _ => ?_
  exact storeListed_ok_iff (s := s.pair) env profile rfl

/-- Deleting the first recording leaves the others. -/
theorem Store.delete_head {s : Store} {r : Recording} {rs : List Recording}
    (h : s.recordings = r :: rs) : (s.delete r.id).recordings = rs := by
  have hdistinct := s.distinct
  rw [h, List.map_cons, List.nodup_cons] at hdistinct
  have hothers : ∀ a ∈ rs, (a.id != r.id) = true := by
    intro a ha
    rw [bne_iff_ne]
    intro hid
    exact hdistinct.1 (hid ▸ List.mem_map_of_mem ha)
  show s.recordings.filter (fun a => a.id != r.id) = rs
  rw [h, List.filter_cons_of_neg (by simp)]
  exact List.filter_eq_self.mpr hothers

/-- The program of the README behind the list of files. -/
theorem storeMove_ok_iff {s s' : Store} {u : Unit} {r : Recording}
    (hpaired : s.paired = true) (hr : r ∈ s.recordings) :
    (do
      let _ ← (storeClient profile Secret).downloadFile (readmeProgress profile)
        (env.downloadFile 0) r.id [".", "output"]
      (storeClient profile Secret).deleteFile env.deleteFile r.id
      bleCall env.disconnect).run s = .ok u s' ↔
      env.downloadFile 0 = .fine ∧
      (profile = .release ∨ r.frames.length ≤ 268435) ∧
      env.deleteFile.write = none ∧ env.disconnect = none ∧
      s' = (s.put (opusPath [".", "output"] r.id) r.container).delete r.id := by
  have hstore := @storeDownload_here_iff (readmeProgress profile)
    (env.downloadFile 0) r [".", "output"] s
  rw [← reportTo_readme_iff]
  simp only [storeClient, run_bind_ok_iff, bleCall_ok_iff]
  constructor
  · rintro ⟨path, _, hstored, _, _, hdeleted, hdisconnect, rfl⟩
    obtain ⟨henv, hprogress, rfl⟩ := (hstore hpaired hr).mp ⟨path, hstored⟩
    obtain ⟨hdelete, -, rfl⟩ := storeDelete_ok_iff.mp hdeleted
    exact ⟨henv, hprogress, hdelete, hdisconnect, rfl⟩
  · rintro ⟨henv, hprogress, hdelete, hdisconnect, rfl⟩
    obtain ⟨path, hstored⟩ :=
      (hstore hpaired hr).mpr ⟨henv, hprogress, rfl⟩
    exact ⟨path, _, hstored, (), _,
      storeDelete_ok_iff.mpr ⟨hdelete, ⟨r, hr, rfl⟩, rfl⟩, hdisconnect, rfl⟩

theorem storeReadme_ok_iff {s s' : Store} {u : Unit} :
    (readmeExample (storeClient profile Secret) env profile secret).run s =
        .ok u s' ↔
      (∃ device, env.bluetooth.Reaches device) ∧
      env.handshake.write = none ∧ env.listFiles.write = none ∧
      (profile = .release ∨ ∀ r ∈ s.recordings, r.Listable) ∧
      ∃ r rs, s.recordings = r :: rs ∧ env.downloadFile 0 = .fine ∧
        (profile = .release ∨ r.frames.length ≤ 268435) ∧
        env.deleteFile.write = none ∧ env.disconnect = none ∧
        s' = (s.pair.put
          (opusPath [".", "output"] r.id) r.container).delete r.id := by
  have hconnect : (storeClient profile Secret).connect =
      connectThen Store.connected := rfl
  refine (readmeExample_returns_iff hconnect profile secret).trans ?_
  refine and_congr_right fun _ => ?_
  refine (storeListing_bind_ok_iff env profile secret).trans ?_
  refine and_congr_right fun _ => and_congr_right fun _ =>
    and_congr_right fun _ => ?_
  have hsame : s.connected.recordings = s.recordings := rfl
  rw [hsame]
  rcases hrecordings : s.recordings with _ | ⟨r, rs⟩
  · simp
  · have hr : r ∈ s.pair.recordings := hrecordings ▸ List.mem_cons_self
    rw [List.map_cons]
    refine (storeMove_ok_iff env profile rfl hr).trans ?_
    constructor
    · exact fun hmoved => ⟨r, rs, rfl, hmoved⟩
    · rintro ⟨_, _, hfirst, hmoved⟩
      cases hfirst
      exact hmoved

/-- The callback of `mike` never panics. -/
theorem reportTo_mike (r : Recording) : r.reportTo mikeProgress = .ok () := by
  rw [Recording.reportTo, forM_rust_ok_iff]
  exact fun _ _ => rfl

/-- `mike download` over its connection. -/
theorem storeMikeConnected_ok_iff {fileId : UInt32} {output path : Path}
    {s s' : Store} :
    (mikeDownloadConnected (storeClient profile Secret) env secret fileId
        output).run s = .ok path s' ↔
      env.handshake.write = none ∧ env.createDirAll = none ∧
      env.downloadFile 0 = .fine ∧ env.disconnect = none ∧
      path = opusPath output fileId ∧ ∃ r ∈ s.recordings, r.id = fileId ∧
        s' = s.pair.put path r.container := by
  simp only [mikeDownloadConnected, storeClient, run_bind_ok_iff,
    storeHandshake_ok_iff, ioCall_ok_iff, bleCall_ok_iff, storeDownload_ok_iff,
    reportTo_mike]
  constructor
  · rintro ⟨_, _, ⟨hhandshake, rfl⟩, _, _, ⟨hcreate, rfl⟩, _, _,
      ⟨-, henv, rfl, r, hr, hid, -, rfl⟩, _, _, ⟨hdisconnect, rfl⟩, hpath⟩
    cases hpath
    exact ⟨hhandshake, hcreate, henv, hdisconnect, rfl, r, hr, hid, rfl⟩
  · rintro ⟨hhandshake, hcreate, henv, hdisconnect, rfl, r, hr, hid, rfl⟩
    exact ⟨(), _, ⟨hhandshake, rfl⟩, (), _, ⟨hcreate, rfl⟩, _, _,
      ⟨rfl, henv, rfl, r, hr, hid, trivial, rfl⟩, (), _, ⟨hdisconnect, rfl⟩,
      rfl⟩

theorem storeMikeDownload_ok_iff {toLowercase : String → String}
    {query : String} {fileId : UInt32} {output path : Path} {s s' : Store} :
    (mikeDownload (storeClient profile Secret) env toLowercase query secret
        fileId output).run s = .ok (.ok path) s' ↔
      (∃ device, findDevice toLowercase env.bluetooth query =
        .ok (.ok device) ∧ device.Connects) ∧
      env.handshake.write = none ∧ env.createDirAll = none ∧
      env.downloadFile 0 = .fine ∧ env.disconnect = none ∧
      path = opusPath output fileId ∧ ∃ r ∈ s.recordings, r.id = fileId ∧
        s' = s.pair.put path r.container := by
  have hconnect : (storeClient profile Secret).connect =
      connectThen Store.connected := rfl
  have hcommand := @storeMikeConnected_ok_iff Secret env profile secret fileId
    output path s.connected s'
  rw [mikeDownload, onDevice_ok_iff hconnect]
  constructor
  · rintro (⟨_, -, hresult, -⟩ | ⟨device, _, hfind, hconnects, hresult, hrun⟩)
    · cases hresult
    · cases hresult
      exact ⟨⟨device, hfind, hconnects⟩, hcommand.mp hrun⟩
  · rintro ⟨⟨device, hfind, hconnects⟩, hdone⟩
    exact Or.inr ⟨device, path, hfind, hconnects, rfl, hcommand.mpr hdone⟩

end Programs

/-! ## The programs with a device -/

variable (C : Ciphers) {E : Ecdh} (profile : Profile)

/-- From `s` to `s'` the files of `rs` are written, and nothing else is. -/
structure System.Stores (outputDir : Path) (rs : List Recording)
    (s s' : System E) : Prop where
  files : ∀ r ∈ rs,
    s'.world.disk (opusPath outputDir r.id) = some r.container
  others : ∀ path, (∀ r ∈ rs, path ≠ opusPath outputDir r.id) →
    s'.world.disk path = s.world.disk path

theorem System.stores_of_putAll {outputDir : Path} {rs : List Recording}
    {s s' : System E} (hdistinct : (rs.map Recording.id).Nodup)
    (hdisk : s'.world.disk = (s.store.pair.putAll outputDir rs).disk) :
    System.Stores outputDir rs s s' where
  files r hr := by
    rw [hdisk]
    exact Store.putAll_file outputDir _ hdistinct r hr
  others path hpath := by
    rw [hdisk]
    exact Store.putAll_other _ hpath

/-- **When `download_all.rs` succeeds**: exactly if no device is found, or the
first one connects, no call fails and, in a build with overflow checks, no
recording is too long for a file list or for the percentages. Without a device
it does nothing; otherwise it leaves a file of every recording and the device as
it was. -/
theorem downloadAll_ok_iff (hE : E.Lawful) (env : ProgramEnv)
    (secret : E.Secret) {s : System E} (hs : s.Ready) :
    let result := (downloadAll (systemClient C profile E) env profile
      secret).run s
    ((∃ s', result = .ok () s') ↔
      scanDevices env.bluetooth = .ok [] ∨
      (∃ device, env.bluetooth.Reaches device) ∧
        env.handshake.write = none ∧ env.listFiles.write = none ∧
        (profile = .release ∨ ∀ r ∈ s.device.recordings, r.Listable) ∧
        (s.device.recordings ≠ [] → env.createDirAll = none) ∧
        (∀ i r, s.device.recordings[i]? = some r →
          env.downloadFile i = .fine ∧
          (profile = .release ∨ r.frames.length ≤ 268435)) ∧
        env.disconnect = none) ∧
    ∀ s', result = .ok () s' →
      (scanDevices env.bluetooth = .ok [] ∧ s' = s) ∨
      (∃ device, env.bluetooth.Reaches device) ∧
        s'.device.recordings = s.device.recordings ∧
        System.Stores [".", "recordings"] s.device.recordings s s' := by
  have hsimulates := downloadAll_simulates (systemClient_refines C profile hE)
    env profile secret
  refine ⟨?_, fun s' hrun => ?_⟩
  · rw [hsimulates.exists_ok_iff hs]
    simp only [storeDownloadAll_ok_iff]
    constructor
    · rintro ⟨_, ⟨hnone, -⟩ | ⟨hreaches, hhandshake, hlist, hlistable, hcreate,
        hall, hdisconnect, -⟩⟩
      · exact Or.inl hnone
      · exact Or.inr ⟨hreaches, hhandshake, hlist, hlistable, hcreate, hall,
          hdisconnect⟩
    · rintro (hnone | ⟨hreaches, hhandshake, hlist, hlistable, hcreate, hall,
        hdisconnect⟩)
      · exact ⟨_, Or.inl ⟨hnone, rfl⟩⟩
      · exact ⟨_, Or.inr ⟨hreaches, hhandshake, hlist, hlistable, hcreate, hall,
          hdisconnect, rfl⟩⟩
  · have hconnect : (systemClient C profile E).connect =
        connectThen System.connected := rfl
    rcases (downloadAll_returns_iff hconnect profile secret).mp hrun with hnone |
      ⟨hreaches, -⟩
    · exact Or.inl hnone
    · have hstore := (hsimulates.ok hs hrun).2
      rcases (storeDownloadAll_ok_iff env profile secret).mp hstore with
        ⟨hnone, -⟩ | ⟨-, -, -, -, -, -, -, hput⟩
      · obtain ⟨device, ⟨devices, hscan⟩, -⟩ := hreaches
        rw [hnone] at hscan
        cases hscan
      · have hrecordings := congrArg Store.recordings hput
        rw [Store.putAll_recordings] at hrecordings
        exact Or.inr ⟨hreaches, hrecordings, System.stores_of_putAll
          s.device.distinct (congrArg Store.disk hput)⟩

theorem downloadAll_ok_iff_short : ∃ s',
    (downloadAll (systemClient generatorCiphers .dev generatorEcdh) .fine .dev
      ()).run shortSystem = .ok () s' ∧
    s'.world.disk (opusPath [".", "recordings"] 1) =
      some shortRecording.container := by
  obtain ⟨hiff, hstores⟩ := downloadAll_ok_iff generatorCiphers .dev
    generatorEcdh_lawful .fine () shortSystem_ready
  have hall : ∀ i r, shortSystem.device.recordings[i]? = some r →
      ProgramEnv.fine.downloadFile i = .fine ∧
        (Profile.dev = .release ∨ r.frames.length ≤ 268435) := by
    rintro (_ | i) r hr <;> cases hr
    exact ⟨rfl, by decide⟩
  obtain ⟨s', hrun⟩ := hiff.mpr (Or.inr ⟨⟨_, recorderDevice_reached⟩, rfl, rfl,
    Or.inr shortRecording_listable, fun _ => rfl, hall, rfl⟩)
  rcases hstores s' hrun with ⟨hnone, -⟩ | ⟨-, -, hstored⟩
  · cases hnone
  · exact ⟨s', hrun, hstored.files shortRecording List.mem_cons_self⟩

/-- **When the example of the README succeeds**: it needs a first device and a
first recording, which it moves from the device to the disk. In a build with
overflow checks that one has to be short enough for the percentages, and all of
them for a file list. -/
theorem readmeExample_ok_iff (hE : E.Lawful) (env : ProgramEnv)
    (secret : E.Secret) {s : System E} (hs : s.Ready) :
    let result := (readmeExample (systemClient C profile E) env profile
      secret).run s
    ((∃ s', result = .ok () s') ↔
      (∃ device, env.bluetooth.Reaches device) ∧
      env.handshake.write = none ∧ env.listFiles.write = none ∧
      (profile = .release ∨ ∀ r ∈ s.device.recordings, r.Listable) ∧
      (∃ r rs, s.device.recordings = r :: rs ∧
        (profile = .release ∨ r.frames.length ≤ 268435)) ∧
      env.downloadFile 0 = .fine ∧ env.deleteFile.write = none ∧
      env.disconnect = none) ∧
    ∀ s', result = .ok () s' → ∃ r,
      s.device.recordings = r :: s'.device.recordings ∧
      System.Stores [".", "output"] [r] s s' := by
  have hsimulates := readmeExample_simulates
    (systemClient_refines C profile hE) env profile secret
  refine ⟨?_, fun s' hrun => ?_⟩
  · rw [hsimulates.exists_ok_iff hs]
    simp only [storeReadme_ok_iff]
    constructor
    · rintro ⟨_, hreaches, hhandshake, hlist, hlistable, r, rs, hrecordings,
        henv, hshort, hdelete, hdisconnect, -⟩
      exact ⟨hreaches, hhandshake, hlist, hlistable,
        ⟨r, rs, hrecordings, hshort⟩, henv, hdelete, hdisconnect⟩
    · rintro ⟨hreaches, hhandshake, hlist, hlistable,
        ⟨r, rs, hrecordings, hshort⟩, henv, hdelete, hdisconnect⟩
      exact ⟨_, hreaches, hhandshake, hlist, hlistable, r, rs, hrecordings,
        henv, hshort, hdelete, hdisconnect, rfl⟩
  · have hstore := (hsimulates.ok hs hrun).2
    obtain ⟨-, -, -, -, r, rs, hrecordings, -, -, -, -, hput⟩ :=
      (storeReadme_ok_iff env profile secret).mp hstore
    have hrest : s'.device.recordings = rs :=
      (congrArg Store.recordings hput).trans (Store.delete_head hrecordings)
    refine ⟨r, by rw [hrest]; exact hrecordings, ?_⟩
    exact System.stores_of_putAll (List.nodup_singleton _)
      (congrArg Store.disk hput)

theorem readmeExample_ok_iff_short : ∃ s',
    (readmeExample (systemClient generatorCiphers .dev generatorEcdh) .fine .dev
      ()).run shortSystem = .ok () s' ∧ s'.device.recordings = [] := by
  obtain ⟨hiff, hstores⟩ := readmeExample_ok_iff generatorCiphers .dev
    generatorEcdh_lawful .fine () shortSystem_ready
  obtain ⟨s', hrun⟩ := hiff.mpr ⟨⟨_, recorderDevice_reached⟩, rfl, rfl,
    Or.inr shortRecording_listable, ⟨_, _, rfl, by decide⟩, rfl, rfl, rfl⟩
  obtain ⟨r, hrecordings, -⟩ := hstores s' hrun
  exact ⟨s', hrun, (List.cons.inj hrecordings).2.symm⟩

/-- **When `mike download` succeeds**, and which file it prints: that of the
recording that was asked for. It asks for no list, so no duration matters. -/
theorem mikeDownload_ok_iff (hE : E.Lawful) (env : ProgramEnv)
    (toLowercase : String → String) (query : String) (secret : E.Secret)
    (fileId : UInt32) (output path : Path) {s : System E} (hs : s.Ready) :
    let result := (mikeDownload (systemClient C profile E) env toLowercase query
      secret fileId output).run s
    ((∃ s', result = .ok (.ok path) s') ↔
      (∃ device, findDevice toLowercase env.bluetooth query =
        .ok (.ok device) ∧ device.Connects) ∧
      env.handshake.write = none ∧ env.createDirAll = none ∧
      env.downloadFile 0 = .fine ∧ env.disconnect = none ∧
      path = opusPath output fileId ∧
      ∃ r ∈ s.device.recordings, r.id = fileId) ∧
    ∀ s', result = .ok (.ok path) s' →
      s'.device.recordings = s.device.recordings ∧
      ∃ r ∈ s.device.recordings, r.id = fileId ∧
        System.Stores output [r] s s' := by
  have hsimulates := mikeDownload_simulates
    (systemClient_refines C profile hE) env secret toLowercase query fileId
    output
  refine ⟨?_, fun s' hrun => ?_⟩
  · rw [hsimulates.exists_ok_iff hs]
    simp only [storeMikeDownload_ok_iff]
    constructor
    · rintro ⟨_, hfound, hhandshake, hcreate, henv, hdisconnect, hpath, r, hr,
        hid, -⟩
      exact ⟨hfound, hhandshake, hcreate, henv, hdisconnect, hpath, r, hr, hid⟩
    · rintro ⟨hfound, hhandshake, hcreate, henv, hdisconnect, hpath, r, hr, hid⟩
      exact ⟨_, hfound, hhandshake, hcreate, henv, hdisconnect, hpath, r, hr,
        hid, rfl⟩
  · have hstore := (hsimulates.ok hs hrun).2
    obtain ⟨-, -, -, -, -, rfl, r, hr, rfl, hput⟩ :=
      (storeMikeDownload_ok_iff env profile secret).mp hstore
    refine ⟨congrArg Store.recordings hput, r, hr, rfl, ?_⟩
    exact System.stores_of_putAll (List.nodup_singleton _)
      (congrArg Store.disk hput)

theorem mikeDownload_ok_iff_short : ∃ s',
    (mikeDownload (systemClient generatorCiphers .dev generatorEcdh) .fine id
      recorderDevice.address () 1 ["output"]).run shortSystem =
        .ok (.ok (opusPath ["output"] 1)) s' ∧
    s'.device.recordings = shortSystem.device.recordings := by
  obtain ⟨hiff, hstores⟩ := mikeDownload_ok_iff generatorCiphers .dev
    generatorEcdh_lawful .fine id recorderDevice.address () 1 ["output"]
    (opusPath ["output"] 1) shortSystem_ready
  obtain ⟨s', hrun⟩ := hiff.mpr ⟨⟨_, recorderDevice_found id,
    recorderDevice_reached.2⟩, rfl, rfl, rfl, rfl, rfl, shortRecording,
    List.mem_cons_self, rfl⟩
  exact ⟨s', hrun, (hstores s' hrun).1⟩

end MicRs
