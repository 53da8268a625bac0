import MicRs.Device.Served
import MicRs.Model.Flows

/-!
# What the crate is for

Recordings on a device, files on a disk, and whether the two ends share a key:
seen from the outside, this is all there is to a recorder (`Store`). The
operations on it say what each of them is for, without a protocol, a cipher or
a container in sight.
-/

namespace MicRs

open StateFrame

/-! ## Files -/

/-- The file of a recording. -/
def Recording.container (r : Recording) : List UInt8 :=
  match wrapOggOpus .release r.plain r.id with
  | .ok bytes => bytes
  | .error _ => []

/-- **A recording has one file**, whatever the build. -/
theorem Recording.wrapOggOpus_plain (r : Recording) (profile : Profile) :
    wrapOggOpus profile r.plain r.id = .ok r.container := by
  have hcount : r.plain.length ≤ 26843545 := r.length_plain ▸ r.numbered
  obtain ⟨bytes, hbytes⟩ := wrapOggOpus_of_inRange profile r.id hcount
  rw [hbytes, container, wrapOggOpus_release_of_ok hbytes]

theorem opusPath_inj {dir dir' : Path} {fileId fileId' : UInt32}
    (h : opusPath dir fileId = opusPath dir' fileId') :
    dir = dir' ∧ fileId = fileId' := by
  obtain ⟨hdir, hname⟩ := List.append_inj' h rfl
  refine ⟨hdir, ?_⟩
  have htext : fileId.toNat.repr = fileId'.toNat.repr :=
    (String.append_left_inj ".opus").mp (List.singleton_inj.mp hname)
  -- The digits tell the number.
  have hdigits := congrArg (fun s => Nat.ofDigitChars 10 s.toList 0) htext
  simp only [Nat.toList_repr, Nat.ofDigitChars_ten_toDigits] at hdigits
  exact UInt32.toNat_inj.mp hdigits

/-- What a callback makes of a recording that is downloaded. -/
def Recording.reportTo (r : Recording) (progress : Callback) : Rust Unit :=
  forM r.reports progress

/-! ## The store -/

@[ext] structure Store where
  recordings : List Recording
  disk : Disk
  paired : Bool
  distinct : (recordings.map Recording.id).Nodup

def Store.find (s : Store) (fileId : UInt32) : Option Recording :=
  s.recordings.find? fun r => r.id == fileId

def Store.delete (s : Store) (fileId : UInt32) : Store :=
  { s with
    recordings := s.recordings.filter fun r => r.id != fileId
    distinct := s.distinct.sublist (List.filter_sublist.map _) }

/-- The two ends share a key. -/
def Store.pair (s : Store) : Store := { s with paired := true }

/-- A new connection, on which they do not yet. -/
def Store.connected (s : Store) : Store := { s with paired := false }

def Store.put (s : Store) (path : Path) (content : List UInt8) : Store :=
  { s with disk := s.disk.put path content }

theorem Store.find_eq_some_iff (s : Store) (fileId : UInt32) (r : Recording) :
    s.find fileId = some r ↔ r ∈ s.recordings ∧ r.id = fileId := by
  constructor
  · intro h
    exact ⟨List.mem_of_find?_eq_some h, by simpa using List.find?_some h⟩
  · rintro ⟨hr, rfl⟩
    obtain ⟨before, after, hsplit⟩ := List.append_of_mem hr
    rw [find, List.find?_eq_some_iff_append]
    refine ⟨by simp, before, after, hsplit, fun r' hr' => ?_⟩
    -- The ones in front of it have other ids.
    have hdistinct := s.distinct
    rw [hsplit, List.map_append, List.map_cons, List.nodup_append] at hdistinct
    have hne := hdistinct.2.2 r'.id (List.mem_map_of_mem hr') r.id
      List.mem_cons_self
    simpa using hne

theorem Store.find_eq_none_iff (s : Store) (fileId : UInt32) :
    s.find fileId = none ↔ ∀ r ∈ s.recordings, r.id ≠ fileId := by
  simp [find]

theorem Store.mem_delete (s : Store) (fileId : UInt32) (r : Recording) :
    r ∈ (s.delete fileId).recordings ↔ r ∈ s.recordings ∧ r.id ≠ fileId := by
  simp [delete]

/-! ## The operations on it -/

/-- A command that may not get through. -/
def storeSend (env : Env) : EStateM Fault Store Unit :=
  match env.write with
  | some e => throw (.error (.ble e))
  | none => return ()

/-- A file is written whole, or up to where it fails. -/
def storeFile (env : Env) (path : Path) (content : List UInt8) :
    EStateM Fault Store Path :=
  match env.create, env.writeAll.or env.flush with
  | some e, _ => throw (.error (.io e))
  | none, some (n, e) => do
      modify fun s => s.put path (content.take n)
      throw (.error (.io e))
  | none, none => do
      modify fun s => s.put path content
      return path

def storeHandshake (env : Env) : EStateM Fault Store Unit := do
  storeSend env
  modify Store.pair

/-- Where the sizes are checked, all of them have to fit. -/
def storeListFiles (profile : Profile) (env : Env) :
    EStateM Fault Store (List FileInfo) := do
  storeSend env
  let recordings := (← get).recordings
  if profile = .release ∨ ∀ r ∈ recordings, r.Listable then
    return recordings.map Recording.info
  else
    throw (.panic .overflow)

def storeDownload (progress : Callback) (env : Env)
    (fileId : UInt32) (outputDir : Path) : EStateM Fault Store Path := do
  if !(← get).paired then
    throw (.error (.handshakeFailed
      "no session key — call handshake() first"))
  storeSend env
  match (← get).find fileId with
  | none => throw (.error (.fileNotExists fileId))
  | some r =>
      r.reportTo progress
      storeFile env (opusPath outputDir fileId) r.container

def storeDelete (env : Env) (fileId : UInt32) : EStateM Fault Store Unit := do
  storeSend env
  match (← get).find fileId with
  | none =>
      throw (.error (.invalidResponse "delete_file failed: flag=0"))
  | some _ => modify fun s => s.delete fileId

/-- The operations on a store. -/
def storeClient (profile : Profile) (Secret : Type) : Client Secret Store where
  connect := connectThen Store.connected
  handshake env _ := storeHandshake env
  listFiles := storeListFiles profile
  downloadFile := storeDownload
  deleteFile := storeDelete

/-! ## Nothing is lost -/

/-- A recording that is gone from the device and safe on the disk. -/
def Store.Archived (s : Store) (r : Recording) : Prop :=
  s.find r.id = none ∧
    ∃ outputDir, s.disk (opusPath outputDir r.id) = some r.container

/-- From `s` to `s'` no recording is lost: each of them is still on the device
or safe on the disk, and what was safe still is. -/
structure Store.Conserves (s s' : Store) : Prop where
  kept : ∀ r ∈ s.recordings, r ∈ s'.recordings ∨ s'.Archived r
  archive : ∀ r, s.Archived r → s'.Archived r

theorem Store.Conserves.refl (s : Store) : s.Conserves s :=
  ⟨fun _ => Or.inl, fun _ => id⟩

theorem Store.Conserves.trans (s t u : Store) (hst : s.Conserves t)
    (htu : t.Conserves u) : s.Conserves u := by
  constructor
  · intro r hr
    rcases hst.kept r hr with hkept | harchived
    · exact htu.kept r hkept
    · exact Or.inr (htu.archive r harchived)
  · exact fun r hr => htu.archive r (hst.archive r hr)

/-- A change that touches neither the recordings nor the disk. -/
theorem Store.conserves_of_eq {s s' : Store}
    (hrecordings : s'.recordings = s.recordings) (hdisk : s'.disk = s.disk) :
    s.Conserves s' := by
  constructor
  · exact fun r hr => Or.inl (hrecordings ▸ hr)
  · intro r hr
    rw [Archived, find] at hr ⊢
    rwa [hrecordings, hdisk]

/-- A file of a recording on the device may change: nothing that is safe has
its name. -/
theorem Store.conserves_put {s : Store} {r : Recording}
    (hr : r ∈ s.recordings) (outputDir : Path) (content : List UInt8) :
    s.Conserves (s.put (opusPath outputDir r.id) content) := by
  constructor
  · exact fun _ => Or.inl
  · rintro a ⟨hgone, dir, hfile⟩
    refine ⟨hgone, dir, ?_⟩
    have hid : r.id ≠ a.id := (s.find_eq_none_iff a.id).mp hgone r hr
    have hpath : opusPath dir a.id ≠ opusPath outputDir r.id := by
      intro h
      exact hid (opusPath_inj h).2.symm
    exact (Function.update_of_ne hpath _ _).trans hfile

/-- What has this id on the device has a copy on the disk. -/
def Store.Copied (s : Store) (fileId : UInt32) : Prop :=
  ∀ r ∈ s.recordings, r.id = fileId →
    ∃ outputDir, s.disk (opusPath outputDir r.id) = some r.container

/-- A recording with a copy on the disk may be deleted. -/
theorem Store.conserves_delete {s : Store} {fileId : UInt32}
    (hcopy : s.Copied fileId) : s.Conserves (s.delete fileId) := by
  have hfind : ∀ r : Recording, (s.delete fileId).find r.id = none ↔
      s.find r.id = none ∨ r.id = fileId := by
    intro r
    rw [find_eq_none_iff, find_eq_none_iff]
    constructor
    · intro h
      by_cases hid : r.id = fileId
      · exact Or.inr hid
      · refine Or.inl fun a ha haid => ?_
        exact h a ((s.mem_delete fileId a).mpr ⟨ha, haid ▸ hid⟩) haid
    · rintro (h | h) a ha
      · exact h a ((s.mem_delete fileId a).mp ha).1
      · rw [h]
        exact ((s.mem_delete fileId a).mp ha).2
  constructor
  · intro r hr
    by_cases hid : r.id = fileId
    · exact Or.inr ⟨(hfind r).mpr (Or.inr hid), hcopy r hr hid⟩
    · exact Or.inl ((s.mem_delete fileId r).mpr ⟨hr, hid⟩)
  · rintro r ⟨hgone, hfile⟩
    exact ⟨(hfind r).mpr (Or.inl hgone), hfile⟩

/-! ## What the operations do -/

theorem storeSend_run (env : Env) (s : Store) :
    (storeSend env).run s =
      match env.write with
      | some e => .error (.error (.ble e)) s
      | none => .ok () s := by
  rw [storeSend]
  rcases env.write with _ | e <;> rfl

theorem storeHandshake_run (env : Env) (s : Store) :
    (storeHandshake env).run s =
      match env.write with
      | some e => .error (.error (.ble e)) s
      | none => .ok () s.pair := by
  rcases hwrite : env.write with _ | e <;>
    simp [storeHandshake, storeSend_run, hwrite]

theorem storeListFiles_run (profile : Profile) (env : Env) (s : Store) :
    (storeListFiles profile env).run s =
      match env.write with
      | some e => .error (.error (.ble e)) s
      | none =>
          if profile = .release ∨ ∀ r ∈ s.recordings, r.Listable then
            .ok (s.recordings.map Recording.info) s
          else .error (.panic .overflow) s := by
  rcases hwrite : env.write with _ | e
  · simp only [storeListFiles, EStateM.run_bind, storeSend_run, hwrite,
      EStateM.run_get]
    split <;> rfl
  · simp [storeListFiles, storeSend_run, hwrite]

theorem storeFile_run (env : Env) (path : Path) (content : List UInt8)
    (s : Store) :
    (storeFile env path content).run s =
      match env.create, env.writeAll.or env.flush with
      | some e, _ => .error (.error (.io e)) s
      | none, some (n, e) =>
          .error (.error (.io e)) (s.put path (content.take n))
      | none, none => .ok path (s.put path content) := by
  rw [storeFile]
  rcases env.create with _ | e
  · rcases env.writeAll.or env.flush with _ | ⟨n, e⟩ <;> rfl
  · rfl

theorem storeDownload_run (progress : Callback) (env : Env)
    (fileId : UInt32) (outputDir : Path) (s : Store) :
    (storeDownload progress env fileId outputDir).run s =
      match s.paired, env.write, s.find fileId with
      | false, _, _ => .error (.error (.handshakeFailed
          "no session key — call handshake() first")) s
      | true, some e, _ => .error (.error (.ble e)) s
      | true, none, none => .error (.error (.fileNotExists fileId)) s
      | true, none, some r =>
          match r.reportTo progress with
          | .error p => .error (.panic p) s
          | .ok _ => (storeFile env (opusPath outputDir fileId)
              r.container).run s := by
  rcases hpaired : s.paired with _ | _
  · simp [storeDownload, hpaired]
  · rcases hwrite : env.write with _ | e
    · rcases hfind : s.find fileId with _ | r
      · simp [storeDownload, hpaired, storeSend_run, hwrite, hfind]
      · rcases hprogress : r.reportTo progress with p | _ <;>
          simp [storeDownload, hpaired, storeSend_run, hwrite, hfind, hprogress]
    · simp [storeDownload, hpaired, storeSend_run, hwrite]

theorem storeDelete_run (env : Env) (fileId : UInt32) (s : Store) :
    (storeDelete env fileId).run s =
      match env.write, s.find fileId with
      | some e, _ => .error (.error (.ble e)) s
      | none, none => .error (.error (.invalidResponse
          "delete_file failed: flag=0")) s
      | none, some _ => .ok () (s.delete fileId) := by
  rcases hwrite : env.write with _ | e
  · rcases hfind : s.find fileId with _ | r <;>
      simp [storeDelete, storeSend_run, hwrite, hfind]
  · simp [storeDelete, storeSend_run, hwrite]

/-! ## What the operations conserve -/

theorem Store.conserves_connected (s : Store) : s.Conserves s.connected :=
  Store.conserves_of_eq rfl rfl

theorem storeConnect_moves (device : DeviceInfo) (s : Store) :
    Moves Store.Conserves (connectThen Store.connected device) s := by
  rw [Moves]
  by_cases hconnects : device.Connects
  · rw [connectThen_of_connects _ hconnects]
    exact s.conserves_connected
  · obtain ⟨e, hfails⟩ :=
      connectThen_of_not_connects (s := s) Store.connected hconnects
    rw [hfails]
    exact .refl s

theorem storeHandshake_moves (env : Env) (s : Store) :
    Moves Store.Conserves (storeHandshake env) s := by
  rw [Moves, storeHandshake_run]
  rcases env.write with _ | e
  · exact Store.conserves_of_eq rfl rfl
  · exact .refl s

theorem storeListFiles_moves (profile : Profile) (env : Env) (s : Store) :
    Moves Store.Conserves (storeListFiles profile env) s := by
  rw [Moves, storeListFiles_run]
  rcases env.write with _ | e
  · dsimp only
    split <;> exact .refl s
  · exact .refl s

theorem storeFile_moves (env : Env) {r : Recording} {s : Store}
    (hr : r ∈ s.recordings) (outputDir : Path) (content : List UInt8) :
    Moves Store.Conserves
      (storeFile env (opusPath outputDir r.id) content) s := by
  rw [Moves, storeFile_run]
  rcases env.create with _ | e
  · rcases env.writeAll.or env.flush with _ | ⟨n, e⟩
    · exact Store.conserves_put hr _ _
    · exact Store.conserves_put hr _ _
  · exact .refl s

theorem storeDownload_moves (progress : Callback)
    (env : Env) (fileId : UInt32) (outputDir : Path) (s : Store) :
    Moves Store.Conserves (storeDownload progress env fileId outputDir) s := by
  rw [Moves, storeDownload_run]
  rcases s.paired with _ | _
  · exact .refl s
  · rcases env.write with _ | e
    · rcases hfind : s.find fileId with _ | r
      · exact .refl s
      · obtain ⟨hr, rfl⟩ := (s.find_eq_some_iff fileId r).mp hfind
        dsimp only
        rcases r.reportTo progress with p | _
        · exact .refl s
        · exact storeFile_moves env hr outputDir r.container
    · exact .refl s

theorem storeDelete_moves (env : Env) {fileId : UInt32} {s : Store}
    (hcopied : s.Copied fileId) :
    Moves Store.Conserves (storeDelete env fileId) s := by
  rw [Moves, storeDelete_run]
  rcases env.write with _ | e
  · rcases s.find fileId with _ | r
    · exact .refl s
    · exact Store.conserves_delete hcopied
  · exact .refl s

/-! ## When a download returns -/

theorem storeFile_ok_iff {env : Env} {path path' : Path}
    {content : List UInt8} {s s' : Store} :
    (storeFile env path content).run s = .ok path' s' ↔
      env.create = none ∧ env.writeAll = none ∧ env.flush = none ∧
        path' = path ∧ s' = s.put path content := by
  rw [storeFile_run]
  rcases env.create with _ | e
  · rcases env.writeAll with _ | ⟨n, e⟩
    · rcases env.flush with _ | ⟨n, e⟩
      · simp [eq_comm]
      · simp
    · simp
  · simp

/-- **When a download returns**, and what it has stored then. -/
theorem storeDownload_ok_iff {progress : Callback}
    {env : Env} {fileId : UInt32} {outputDir path : Path} {s s' : Store} :
    (storeDownload progress env fileId outputDir).run s = .ok path s' ↔
      s.paired = true ∧ env = .fine ∧ path = opusPath outputDir fileId ∧
      ∃ r ∈ s.recordings, r.id = fileId ∧ r.reportTo progress = .ok () ∧
        s' = s.put path r.container := by
  have hfine : env = .fine ↔ env.write = none ∧ env.create = none ∧
      env.writeAll = none ∧ env.flush = none := by
    obtain ⟨write, create, writeAll, flush⟩ := env
    simp [Env.fine]
  rw [storeDownload_run, hfine]
  constructor
  · intro h
    rcases hpaired : s.paired with _ | _
    · simp [hpaired] at h
    · rcases hwrite : env.write with _ | e
      · rcases hfind : s.find fileId with _ | r
        · simp [hpaired, hwrite, hfind] at h
        · obtain ⟨hr, hid⟩ := (s.find_eq_some_iff fileId r).mp hfind
          rcases hprogress : r.reportTo progress with p | _
          · simp [hpaired, hwrite, hfind, hprogress] at h
          · simp only [hpaired, hwrite, hfind, hprogress] at h
            obtain ⟨hcreate, hwriteAll, hflush, hpath, hput⟩ :=
              storeFile_ok_iff.mp h
            exact ⟨rfl, ⟨rfl, hcreate, hwriteAll, hflush⟩, hpath, r, hr, hid,
              hprogress, hpath ▸ hput⟩
      · simp [hpaired, hwrite] at h
  · rintro ⟨hpaired, ⟨hwrite, hcreate, hwriteAll, hflush⟩, hpath, r, hr, hid,
      hprogress, hput⟩
    have hfind := (s.find_eq_some_iff fileId r).mpr ⟨hr, hid⟩
    simp only [hpaired, hwrite, hfind, hprogress]
    exact storeFile_ok_iff.mpr
      ⟨hcreate, hwriteAll, hflush, hpath, hpath ▸ hput⟩

end MicRs
