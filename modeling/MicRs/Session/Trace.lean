import MicRs.Protocol.Commands
import MicRs.Session.KeyExchange

/-!
# What a session writes

An operation writes one command before it receives anything, or none: when the
write fails, and for a download without a session key (`exec_written`). So what
a session has put on the air is read back as the commands of its operations, in
their order (`session_commands`).
-/

namespace MicRs

open StateFrame Framing

variable (C : Ciphers) (E : Ecdh) (profile : Profile)

/-! ## One operation -/

/-- What a call of `send` writes. -/
def sent (env : Env) (data : List UInt8) : List (List UInt8) :=
  match env.write with
  | none => [data]
  | some _ => []

/-- What a call writes in world `w`. -/
def Call.writes (call : Call E.Secret) (w : World) : List (List UInt8) :=
  match call.op with
  | .handshake secret =>
      sent call.env (ecdhPubkeyCommand (E.publicKeyBytes secret))
  | .setSessionKey _ => []
  | .listFiles => sent call.env (fileListRequest 0)
  | .downloadFile fileId _ =>
      if w.sessionKey.isSome then sent call.env (fileHeaderRequest fileId 0)
      else []
  | .deleteFile fileId => sent call.env (deleteFileCommand fileId)
  | .rawCommand data => sent call.env data
  | .rawSend data => sent call.env data

theorem ignoresDisk_written : IgnoresDisk World.written := fun _ _ => rfl

theorem send_written (env : Env) (data : List UInt8) (w : World) :
    (finalState ((send env data).run w)).written =
      w.written ++ sent env data := by
  rw [send, sent]
  rcases env.write with _ | e
  · rfl
  · exact (List.append_nil _).symm

theorem recv_keeps_written : Keeps World.written recv := by
  intro w
  rw [recv_run]
  rcases w.rx with _ | ⟨_ | _, rest⟩ <;> rfl

theorem recvUntil_keeps_written {σ β : Type}
    (body : σ → List UInt8 → LogM (σ ⊕ β)) (s : σ) :
    Keeps World.written (recvUntil body s) := by
  intro w
  rw [recvUntil_run, World.finish]
  rcases (MessageLoop.run (recvStep body) (s, w.log) w.rx).ending with
    ⟨_, log⟩ | ⟨_ | _, log⟩ <;> rfl

/-- An exchange and what is behind it write the command of the exchange. -/
theorem written_of_exchange {α : Type} {x : RecorderM α} {env : Env}
    {command : List UInt8} {k : List UInt8 → RecorderM α}
    (hx : x = sendAndRecv env command >>= k)
    (hk : ∀ resp, Keeps World.written (k resp)) (w : World) :
    (finalState (x.run w)).written = w.written ++ sent env command := by
  rw [hx, Keeps.after_bind hk, sendAndRecv,
    Keeps.after_bind fun _ => recv_keeps_written]
  exact send_written env command w

/-- A handshake is an exchange, and behind it nothing but the key is set. -/
theorem handshake_exchange_keeps {γ : Type} {f : World → γ}
    (hf : ∀ (w : World) key, f { w with sessionKey := some key } = f w)
    (secret : E.Secret) : ∃ k : List UInt8 → RecorderM Unit,
      (∀ env, handshake C E env secret = sendAndRecv env
        (ecdhPubkeyCommand (E.publicKeyBytes secret)) >>= k) ∧
      ∀ resp, Keeps f (k resp) := by
  refine ⟨_, fun _ => rfl, fun resp => ?_⟩
  apply Keeps.bind (stateless_rust _).keeps
  rintro (_ | ecdhResp)
  · exact Keeps.throw _
  · dsimp only
    apply Keeps.bind (stateless_result _).keeps
    intro sharedSecret
    split
    · exact (Keeps.throw _).bind fun _ => Keeps.modify fun w => hf w _
    · exact Keeps.modify fun w => hf w _

theorem handshake_written (env : Env) (secret : E.Secret) (w : World) :
    (finalState ((handshake C E env secret).run w)).written =
      w.written ++ sent env (ecdhPubkeyCommand (E.publicKeyBytes secret)) := by
  obtain ⟨k, hhandshake, hk⟩ := handshake_exchange_keeps C E
    (f := World.written) (fun _ _ => rfl) secret
  exact written_of_exchange (hhandshake env) hk w

theorem listFiles_written (env : Env) (w : World) :
    (finalState ((listFiles profile env).run w)).written =
      w.written ++ sent env (fileListRequest 0) := by
  obtain ⟨k, hlist, hk⟩ := listFiles_exchange profile
  exact written_of_exchange (hlist env) (fun resp => (hk resp).keeps) w

theorem deleteFile_written (env : Env) (fileId : UInt32) (w : World) :
    (finalState ((deleteFile env fileId).run w)).written =
      w.written ++ sent env (deleteFileCommand fileId) := by
  obtain ⟨k, hdelete, hk⟩ := deleteFile_exchange fileId
  exact written_of_exchange (hdelete env) (fun resp => (hk resp).keeps) w

theorem downloadFile_written (progress : Callback) (env : Env)
    (fileId : UInt32) (sessionKey : Vector UInt8 32) (outputDir : Path)
    (w : World) :
    (finalState ((downloadFileWith C profile progress env fileId sessionKey
      outputDir).run w)).written =
      w.written ++ sent env (fileHeaderRequest fileId 0) := by
  refine (Keeps.after_bind ?_ _ w).trans (send_written env _ w)
  intro _
  apply Keeps.bind (recvUntil_keeps_written _ _)
  intro hdr
  unfold acceptHeaderWith
  rcases FileHeaderCode.ofByte hdr.code with _ | _ | _ | _ | code
  · apply Keeps.bind (stateless_result _).keeps
    intro fileKey
    apply Keeps.bind (recvUntil_keeps_written _ _)
    intro transfer
    exact saveFile_keeps ignoresDisk_written _ _ _ _ _
  · exact Keeps.throw _
  · exact Keeps.throw _
  · exact Keeps.pure _
  · exact Keeps.throw _

theorem recorderDownloadFile_written (progress : Callback) (env : Env)
    (fileId : UInt32) (outputDir : Path) (w : World) :
    (finalState ((recorderDownloadFileWith C profile progress env fileId
      outputDir).run w)).written =
      w.written ++ if w.sessionKey.isSome then
        sent env (fileHeaderRequest fileId 0) else [] := by
  rcases hkey : w.sessionKey with _ | key
  · simp [recorderDownloadFileWith, hkey, finalState]
  · rw [recorderDownloadFile_key C profile hkey, downloadFile_written]
    rfl

/-- **An operation writes its command, once, or nothing.** -/
theorem exec_written (call : Call E.Secret) (w : World) :
    (finalState ((call.exec C E profile).run w)).written =
      w.written ++ call.writes E w := by
  obtain ⟨op, env⟩ := call
  cases op with
  | handshake secret =>
      exact (Keeps.after_bind (fun _ => Keeps.pure _) _ w).trans
        (handshake_written C E env secret w)
  | setSessionKey key => exact (List.append_nil _).symm
  | listFiles =>
      exact (Keeps.after_bind (fun _ => Keeps.pure _) _ w).trans
        (listFiles_written profile env w)
  | downloadFile fileId outputDir =>
      exact (Keeps.after_bind (fun _ => Keeps.pure _) _ w).trans
        (recorderDownloadFile_written C profile _ env fileId outputDir w)
  | deleteFile fileId =>
      exact (Keeps.after_bind (fun _ => Keeps.pure _) _ w).trans
        (deleteFile_written env fileId w)
  | rawCommand data =>
      exact (Keeps.after_bind (fun _ => Keeps.pure _) _ w).trans
        ((Keeps.after_bind (fun _ => recv_keeps_written) _ w).trans
          (send_written env data w))
  | rawSend data =>
      exact (Keeps.after_bind (fun _ => Keeps.pure _) _ w).trans
        (send_written env data w)

/-! ## Whole sessions -/

/-- The world a session ends in. -/
def lastWorld (w : World) : List (Step E.Secret) → World
  | [] => w
  | step :: steps => lastWorld (worldAfter step.result) steps

theorem session_written (calls : List (Call E.Secret)) (w : World) :
    (lastWorld E w (session C E profile w calls)).written =
      w.written ++ (session C E profile w calls).flatMap fun step =>
        step.call.writes E step.before := by
  induction calls generalizing w with
  | nil => exact (List.append_nil _).symm
  | cons call calls ih =>
      have hfirst := exec_written C E profile call w
      rw [← worldAfter_eq] at hfirst
      rcases hresult : (call.exec C E profile).run w with
        ⟨answer, w'⟩ | ⟨e | p, w'⟩ <;> rw [hresult] at hfirst
      · rw [session_cons_ok C E profile calls hresult, lastWorld,
          List.flatMap_cons, ← List.append_assoc, ← hfirst]
        exact ih w'
      · rw [session_cons_error C E profile calls hresult, lastWorld,
          List.flatMap_cons, ← List.append_assoc, ← hfirst]
        exact ih w'
      · -- A panic ends the session.
        simp only [session, hresult, lastWorld, List.flatMap_cons,
          List.flatMap_nil, List.append_nil]
        exact hfirst

/-! ## Reading it back -/

/-- Whether a call sends bytes of the caller's own. -/
def Call.IsRaw {Secret : Type} (call : Call Secret) : Prop :=
  (∃ data, call.op = .rawCommand data) ∨ ∃ data, call.op = .rawSend data

/-- The command a call is about. -/
def Call.command (call : Call E.Secret) (w : World) : Option SentCommand :=
  match call.op with
  | .handshake secret =>
      some (.ecdhPubkey (arrayAt 65 (E.publicKeyBytes secret) 0))
  | .listFiles => some (.fileListRequest 0)
  | .downloadFile fileId _ =>
      if w.sessionKey.isSome then some (.fileHeaderRequest fileId 0) else none
  | .deleteFile fileId => some (.deleteFile fileId)
  | _ => none

/-- The command a step has sent: that of its call, if it was written. -/
def Step.command (step : Step E.Secret) : Option SentCommand :=
  match step.call.env.write with
  | none => step.call.command E step.before
  | some _ => none

/-- Keys of 65 bytes, as SEC1 encodes points uncompressed. -/
def Ecdh.Uncompressed : Prop :=
  ∀ secret, (E.publicKeyBytes secret).length = 65

variable {E} in
theorem ecdhPubkey_packet (hkeys : E.Uncompressed) (secret : E.Secret) :
    (SentCommand.ecdhPubkey (arrayAt 65 (E.publicKeyBytes secret) 0)).packet =
      ecdhPubkeyCommand (E.publicKeyBytes secret) := by
  have hlen := hkeys secret
  have hkey : (arrayAt 65 (E.publicKeyBytes secret) 0).toList =
      E.publicKeyBytes secret := by
    rw [toList_arrayAt hlen.ge, List.drop_zero, List.take_of_length_le hlen.le]
  rw [SentCommand.packet, hkey]

variable {E} in
/-- What a step writes is the packet of its command. -/
theorem Step.writes_eq (hkeys : E.Uncompressed) {step : Step E.Secret}
    (hraw : ¬ step.call.IsRaw) :
    step.call.writes E step.before =
      ((step.command E).map SentCommand.packet).toList := by
  obtain ⟨before, ⟨op, env⟩, result⟩ := step
  simp only [Call.writes, Step.command, Call.command, sent]
  rcases env.write with _ | e
  · cases op with
    | handshake secret =>
        rw [Option.map_some, ecdhPubkey_packet hkeys secret]
        rfl
    | setSessionKey key => rfl
    | listFiles => rfl
    | downloadFile fileId outputDir =>
        by_cases hkey : before.sessionKey.isSome = true
        · simp [hkey, SentCommand.packet]
        · simp [hkey]
    | deleteFile fileId => rfl
    | rawCommand data => exact absurd (Or.inl ⟨data, rfl⟩) hraw
    | rawSend data => exact absurd (Or.inr ⟨data, rfl⟩) hraw
  · cases op with
    | downloadFile fileId outputDir => simp
    | _ => rfl

theorem mem_session_call {calls : List (Call E.Secret)} {w : World}
    {step : Step E.Secret} (h : step ∈ session C E profile w calls) :
    step.call ∈ calls := by
  induction calls generalizing w with
  | nil => cases h
  | cons call calls ih =>
      rcases hsteps : session C E profile w (call :: calls) with _ | ⟨first, steps⟩
      · rw [hsteps] at h
        cases h
      · rw [hsteps] at h
        obtain ⟨_, _, hcalls, rfl, hrest⟩ := session_eq_cons C E profile hsteps
        cases hcalls
        rcases List.mem_cons.mp h with rfl | h
        · exact List.mem_cons_self
        · rcases hrest with rfl | rfl
          · cases h
          · exact List.mem_cons_of_mem _ (ih h)

/-- **What a session without raw operations has put on the air is read back as
its commands**: read as one stream by the documented wire format, the bytes
written are the commands of the steps in their order, one for each step that
wrote, and nothing else. -/
theorem session_commands (hkeys : E.Uncompressed) {calls : List (Call E.Secret)}
    (hraw : ∀ call ∈ calls, ¬ call.IsRaw) {w : World} (hfresh : w.written = []) :
    readCommands (lastWorld E w (session C E profile w calls)).written.flatten =
      some ((session C E profile w calls).filterMap (Step.command E)) := by
  have hwrites : ((session C E profile w calls).flatMap fun step =>
      step.call.writes E step.before) =
      ((session C E profile w calls).filterMap (Step.command E)).map
        SentCommand.packet := by
    have hsteps : ∀ step ∈ session C E profile w calls, ¬ step.call.IsRaw :=
      fun step hstep => hraw _ (mem_session_call C E profile hstep)
    generalize session C E profile w calls = steps at hsteps ⊢
    induction steps with
    | nil => rfl
    | cons step steps ih =>
        rw [List.forall_mem_cons] at hsteps
        rw [List.flatMap_cons, List.filterMap_cons, ih hsteps.2,
          Step.writes_eq hkeys hsteps.1]
        rcases Step.command E step with _ | command <;> rfl
  rw [session_written, hfresh, List.nil_append, hwrites, ← List.flatMap_def]
  exact readAll_encode fun command _ => delimits_packet command

/-- A handshake, a download and a request for the list that is not written. -/
def exchangeCalls : List (Call sampleEcdh.Secret) :=
  [⟨.handshake (), .fine⟩, ⟨.downloadFile 1 [], .fine⟩,
    ⟨.listFiles, { Env.fine with write := some "not connected" }⟩]

theorem session_commands_exchange :
    readCommands (lastWorld sampleEcdh exchangeWorld
      (session sampleCiphers sampleEcdh .release exchangeWorld
        exchangeCalls)).written.flatten =
      some ((session sampleCiphers sampleEcdh .release exchangeWorld
        exchangeCalls).filterMap (Step.command sampleEcdh)) :=
  session_commands sampleCiphers sampleEcdh .release (fun _ => rfl)
    (by simp [exchangeCalls, Call.IsRaw]) rfl

end MicRs
