import MicRs.Session.Trace
import MicRs.Transfer.Failure

/-!
# Where the files of a session come from

Only a download whose transfer the device has ended touches a file, and it
writes the container of the slices it has received by then, however few they
are: all of the container, or a beginning where the write failed
(`Step.Stores`). So whatever a device sends and whatever fails, a file is at the
end of a session what it was before, or what the last such download has made of
it (`session_file`).
-/

namespace MicRs

open StateFrame

variable (C : Ciphers) (E : Ecdh) (profile : Profile)

/-! ## Operations that leave the disk alone -/

/-- **Only a download touches the disk.** -/
theorem exec_keeps_disk {call : Call E.Secret}
    (h : ∀ fileId outputDir, call.op ≠ .downloadFile fileId outputDir) :
    Keeps World.disk (call.exec C E profile) := by
  obtain ⟨op, env⟩ := call
  have hexchange := sendAndRecv_keeps ignoresChannel_disk env
  cases op with
  | handshake secret =>
      obtain ⟨k, hhandshake, hk⟩ := handshake_exchange_keeps C E
        (f := World.disk) (fun _ _ => rfl) secret
      apply Keeps.bind _ fun _ => Keeps.pure _
      rw [hhandshake]
      exact (hexchange _).bind hk
  | setSessionKey key =>
      exact Keeps.bind (Keeps.modify fun _ => rfl) fun _ => Keeps.pure _
  | listFiles =>
      obtain ⟨k, hlist, hk⟩ := listFiles_exchange profile
      apply Keeps.bind _ fun _ => Keeps.pure _
      rw [hlist]
      exact (hexchange _).bind fun resp => (hk resp).keeps
  | downloadFile fileId outputDir => exact absurd rfl (h fileId outputDir)
  | deleteFile fileId =>
      obtain ⟨k, hdelete, hk⟩ := deleteFile_exchange fileId
      apply Keeps.bind _ fun _ => Keeps.pure _
      rw [hdelete]
      exact (hexchange _).bind fun resp => (hk resp).keeps
  | rawCommand data => exact (hexchange data).bind fun _ => Keeps.pure _
  | rawSend data =>
      exact (send_keeps ignoresChannel_disk env data).bind fun _ => Keeps.pure _

/-! ## What a step stores -/

variable {E}

/-- A 1A0A ends the transfer of a download from `w`, and `bytes` is the container
of the slices received by then: those of a whole recording, if the device has
sent all of them. -/
def Received (env : Env) (fileId : UInt32) (w : World) (bytes : List UInt8) :
    Prop :=
  ∃ key data rest fileKey, w.sessionKey = some key ∧
    Begins C env key w data rest fileKey ∧
    Saves C profile fileId (.read data) rest fileKey bytes

/-- A step is such a download, to `path`. -/
def Step.Receives (step : Step E.Secret) (path : Path) (bytes : List UInt8) :
    Prop :=
  ∃ fileId outputDir, step.call.op = .downloadFile fileId outputDir ∧
    path = opusPath outputDir fileId ∧
    Received C profile step.call.env fileId step.before bytes

/-- It has put the container into its file: all of it, or a beginning. -/
def Step.Stores (step : Step E.Secret) (path : Path) (content : List UInt8) :
    Prop :=
  ∃ bytes, step.Receives C profile path bytes ∧
    (content = bytes ∨ ∃ n message,
      WriteFails step.call.env n message ∧ content = bytes.take n) ∧
    (worldAfter step.result).disk = step.before.disk.put path content

/-- A step that stores nothing leaves the disk alone. -/
theorem Step.disk_cases {step : Step E.Secret}
    (hresult : step.result = (step.call.exec C E profile).run step.before) :
    (worldAfter step.result).disk = step.before.disk ∨
      ∃ path content, step.Stores C profile path content := by
  rcases hop : step.call.op with secret | key | _ | ⟨fileId, outputDir⟩ | fileId |
    data | data
  case downloadFile =>
    obtain ⟨w, ⟨op, env⟩, result⟩ := step
    cases hop
    rcases hkey : w.sessionKey with _ | key
    · left
      have hidle : (recorderDownloadFile C profile env fileId outputDir).run w =
          .error (.error (.handshakeFailed
            "no session key — call handshake() first")) w := by
        simp [recorderDownloadFileWith, hkey]
      have hexec : result = .error (.error (.handshakeFailed
          "no session key — call handshake() first")) w := by
        rw [show result = _ from hresult]
        simp only [Call.exec, EStateM.run_bind, hidle]
      rw [hexec]
      rfl
    · rw [exec_downloadFile C E profile hkey] at hresult
      rcases hrun : (downloadFile C profile env fileId key outputDir).run w with
        ⟨path, w'⟩ | ⟨fault, w'⟩
      · rw [hrun] at hresult
        cases hresult
        obtain ⟨rfl, ⟨_, _, _, _, rfl⟩ |
          ⟨data, rest, fileKey, bytes, rest', hbegins, hsaves, rfl⟩⟩ :=
          downloadFile_ok C hrun
        · exact Or.inl rfl
        · exact Or.inr ⟨_, bytes, bytes, ⟨fileId, outputDir, rfl, rfl, key, data,
            rest, fileKey, hkey, hbegins, hsaves⟩, Or.inl rfl, rfl⟩
      · rw [hrun] at hresult
        cases hresult
        rcases downloadFile_error_disk C hrun with hdisk |
          ⟨bytes, n, message, hfails⟩
        · exact Or.inl hdisk
        · obtain ⟨w₁, hrun₁, hdisk⟩ :=
            downloadFile_write_fails C outputDir hfails
          rw [hrun] at hrun₁
          cases hrun₁
          obtain ⟨⟨data, rest, fileKey, hbegins, hsaves⟩, hwrite⟩ := hfails
          exact Or.inr ⟨_, bytes.take n, bytes, ⟨fileId, outputDir, rfl, rfl, key,
            data, rest, fileKey, hkey, hbegins, hsaves⟩,
            Or.inr ⟨n, message, hwrite, rfl⟩, hdisk⟩
  all_goals
    left
    rw [hresult, worldAfter_eq]
    exact exec_keeps_disk C E profile (by simp [hop]) step.before

/-- One step, seen from one file. -/
theorem Step.file_cases {step : Step E.Secret}
    (hresult : step.result = (step.call.exec C E profile).run step.before)
    (path : Path) :
    (∀ content, ¬ step.Stores C profile path content) ∧
        (worldAfter step.result).disk path = step.before.disk path ∨
      ∃ content, step.Stores C profile path content ∧
        (worldAfter step.result).disk path = some content := by
  by_cases hstores : ∃ content, step.Stores C profile path content
  · obtain ⟨content, hcontent⟩ := hstores
    obtain ⟨_, -, -, hput⟩ := id hcontent
    exact Or.inr ⟨content, hcontent, by rw [hput]; exact Function.update_self _ _ _⟩
  · have hnone : ∀ content, ¬ step.Stores C profile path content :=
      fun content h => hstores ⟨content, h⟩
    refine Or.inl ⟨hnone, ?_⟩
    rcases step.disk_cases C profile hresult with hdisk | ⟨path', content, hother⟩
    · rw [hdisk]
    · have hpath : path ≠ path' := by
        rintro rfl
        exact hnone content hother
      obtain ⟨_, -, -, hput⟩ := hother
      rw [hput]
      exact Function.update_of_ne hpath _ _

/-! ## Whole sessions -/

/-- **Where a file comes from**: at the end of a session it is what it was
before, and no step has stored anything there, or it is what the last step that
stored something there has stored. -/
theorem session_file (calls : List (Call E.Secret)) (w : World) (path : Path) :
    let steps := session C E profile w calls
    let w' := lastWorld E w steps
    ((∀ step ∈ steps, ∀ content, ¬ step.Stores C profile path content) ∧
        w'.disk path = w.disk path) ∨
      ∃ before step after content, steps = before ++ step :: after ∧
        step.Stores C profile path content ∧
        (∀ later ∈ after, ∀ content, ¬ later.Stores C profile path content) ∧
        w'.disk path = some content := by
  induction calls generalizing w with
  | nil => exact Or.inl ⟨fun step h => absurd h List.not_mem_nil, rfl⟩
  | cons call calls ih =>
      rcases hsteps : session C E profile w (call :: calls) with _ | ⟨first, rest⟩
      · cases hsteps
      · obtain ⟨_, _, hcalls, rfl, hrest⟩ := session_eq_cons C E profile hsteps
        cases hcalls
        let first : Step E.Secret := ⟨w, call, (call.exec C E profile).run w⟩
        have hfirst := first.file_cases C profile rfl path
        have htail := ih (worldAfter ((call.exec C E profile).run w))
        -- A panic ends the session.
        have hnothing := @List.not_mem_nil (Step E.Secret)
        rcases hrest with rfl | rfl
        · rcases hfirst with ⟨hnone, hkept⟩ | ⟨content, hstores, hput⟩
          · refine Or.inl ⟨?_, hkept⟩
            rw [List.forall_mem_cons]
            exact ⟨hnone, fun step h => absurd h hnothing⟩
          · exact Or.inr ⟨[], _, [], content, rfl, hstores,
              fun step h => absurd h hnothing, hput⟩
        · rcases htail with ⟨hnone, hsame⟩ |
            ⟨before, step, after, content, hsplit, hstores, hlater, hdisk⟩
          · rcases hfirst with ⟨hfirst, hkept⟩ | ⟨content, hstores, hput⟩
            · refine Or.inl ⟨?_, hsame.trans hkept⟩
              rw [List.forall_mem_cons]
              exact ⟨hfirst, hnone⟩
            · exact Or.inr ⟨[], _, _, content, rfl, hstores, hnone,
                hsame.trans hput⟩
          · exact Or.inr ⟨_ :: before, step, after, content, by rw [hsplit]; rfl,
              hstores, hlater, hdisk⟩

end MicRs
