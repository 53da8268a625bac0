import MicRs.Base.StateFrame
import MicRs.Model.Download

/-!
# What the parts of a download leave alone

Sending and receiving change the channel and the log, and saving changes the
disk. So the session key survives a whole download, the disk all of it but the
saving (`recvUntil_keeps`), and the log all of it but the receive loops
(`saveFile_keeps`).
-/

namespace MicRs

open MessageLoop StateFrame

variable {γ : Type}

/-- A part of the world that neither the channel nor the log shows up in. -/
def IgnoresChannel (f : World → γ) : Prop :=
  ∀ (w : World) rx written received log,
    f { w with rx, written, received, log } = f w

/-- A part of the world that the disk does not show up in. -/
def IgnoresDisk (f : World → γ) : Prop :=
  ∀ (w : World) disk, f { w with disk } = f w

theorem ignoresChannel_sessionKey : IgnoresChannel World.sessionKey :=
  fun _ _ _ _ _ => rfl

theorem ignoresChannel_disk : IgnoresChannel World.disk :=
  fun _ _ _ _ _ => rfl

theorem ignoresDisk_sessionKey : IgnoresDisk World.sessionKey :=
  fun _ _ => rfl

theorem ignoresDisk_log : IgnoresDisk World.log :=
  fun _ _ => rfl

variable {f : World → γ}

/-- What does not touch the world: pure code of the crate. -/
theorem stateless_rust {α : Type} (x : Rust α) :
    Stateless (liftM x : RecorderM α) := by
  rcases x with p | a
  · exact Stateless.throw _
  · exact Stateless.pure a

theorem stateless_result {α : Type} (x : Except RecorderError α) :
    Stateless (liftM x : RecorderM α) := by
  rcases x with e | a
  · exact Stateless.throw _
  · exact Stateless.pure a

/-! ## Sending and receiving -/

theorem send_keeps (hf : IgnoresChannel f) (env : Env) (data : List UInt8) :
    Keeps f (send env data) := by
  unfold send
  rcases env.write with _ | e
  · exact Keeps.modify fun w => hf w _ _ _ _
  · exact Keeps.throw _

theorem recv_keeps (hf : IgnoresChannel f) : Keeps f recv := by
  intro w
  rw [recv_run]
  rcases w.rx with _ | ⟨_ | _, rest⟩
  · rfl
  · exact hf w _ _ _ _
  · exact hf w _ _ _ _

theorem sendAndRecv_keeps (hf : IgnoresChannel f) (env : Env)
    (data : List UInt8) : Keeps f (sendAndRecv env data) :=
  (send_keeps hf env data).bind fun _ => recv_keeps hf

theorem recvUntil_keeps (hf : IgnoresChannel f) {σ β : Type}
    (body : σ → List UInt8 → LogM (σ ⊕ β)) (s : σ) :
    Keeps f (recvUntil body s) := by
  intro w
  rw [recvUntil_run, World.finish]
  rcases (run (recvStep body) (s, w.log) w.rx).ending with
    ⟨_, log⟩ | ⟨_ | _, log⟩
  · exact hf w _ _ _ _
  · exact hf w _ _ _ _
  · exact hf w _ _ _ _

/-! ## Saving -/

theorem createFile_keeps (hf : IgnoresDisk f) (env : Env) (path : Path) :
    Keeps f (createFile env path) := by
  unfold createFile
  rcases env.create with _ | e
  · exact Keeps.modify fun w => hf w _
  · exact Keeps.throw _

theorem writeAll_keeps (hf : IgnoresDisk f) (env : Env) (path : Path)
    (data : List UInt8) : Keeps f (writeAll env path data) := by
  unfold writeAll
  rcases env.writeAll with _ | ⟨n, e⟩
  · exact Keeps.modify fun w => hf w _
  · exact (Keeps.modify fun w => hf w _).bind fun _ => Keeps.throw _

theorem flush_keeps (hf : IgnoresDisk f) (env : Env) (path : Path)
    (data : List UInt8) : Keeps f (flush env path data) := by
  unfold flush
  rcases env.flush with _ | ⟨n, e⟩
  · exact Keeps.pure _
  · exact (Keeps.modify fun w => hf w _).bind fun _ => Keeps.throw _

theorem saveFile_keeps (hf : IgnoresDisk f) (profile : Profile) (env : Env)
    (fileId : UInt32) (outputDir : Path) (rawFrames : List (List UInt8)) :
    Keeps f (saveFile profile env fileId outputDir rawFrames) := by
  unfold saveFile
  apply Keeps.bind (stateless_rust _).keeps
  intro oggData
  apply Keeps.bind (createFile_keeps hf _ _)
  intro _
  apply Keeps.bind (writeAll_keeps hf _ _ _)
  intro _
  apply Keeps.bind (flush_keeps hf _ _ _)
  intro _
  exact Keeps.pure _

/-! ## The download -/

theorem downloadFile_keeps (hchannel : IgnoresChannel f)
    (hdisk : IgnoresDisk f) (C : Ciphers) (profile : Profile)
    (progress : Callback) (env : Env) (fileId : UInt32)
    (sessionKey : Vector UInt8 32) (outputDir : Path) :
    Keeps f (downloadFileWith C profile progress env fileId sessionKey
      outputDir) := by
  unfold downloadFileWith
  apply Keeps.bind (send_keeps hchannel _ _)
  intro _
  apply Keeps.bind (recvUntil_keeps hchannel _ _)
  intro hdr
  unfold acceptHeaderWith
  rcases FileHeaderCode.ofByte hdr.code with _ | _ | _ | _ | code
  · apply Keeps.bind (stateless_result _).keeps
    intro fileKey
    apply Keeps.bind (recvUntil_keeps hchannel _ _)
    intro transfer
    exact saveFile_keeps hdisk _ _ _ _ _
  · exact Keeps.throw _
  · exact Keeps.throw _
  · exact Keeps.pure _
  · exact Keeps.throw _

end MicRs
