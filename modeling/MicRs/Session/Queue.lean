import MicRs.Session.Operations
import MicRs.Transfer.Samples

/-!
# The queue in front of a command

`handshake`, `list_files` and `delete_file` send a command and take whatever
notification comes next for its answer (`exec_takes_head`); `download_file`
skips what it does not wait for. So a notification left in the queue answers
the next command, and the answer of that command is left for the one after it.
`exec_undisturbed_iff` says when a queue does not disturb a command: when there
is nothing in it.
-/

namespace MicRs

open StateFrame

variable (C : Ciphers) (E : Ecdh) (profile : Profile)

/-! ## Commands -/

/-- The operations that send one command and take one notification for its
answer. -/
inductive Command (Secret : Type)
  | handshake (secret : Secret)
  | listFiles
  | deleteFile (fileId : UInt32)

def Command.op {Secret : Type} : Command Secret → Op Secret
  | .handshake secret => .handshake secret
  | .listFiles => .listFiles
  | .deleteFile fileId => .deleteFile fileId

/-- Type and id of the answer to a command. -/
def Command.answerKind {Secret : Type} : Command Secret → UInt8 × UInt8
  | .handshake _ => (cmdTypeEncrypt, cmdEncryptKeyExchange)
  | .listFiles => (cmdTypeFile, cmdGetAllFiles)
  | .deleteFile _ => (cmdTypeFile, cmdDeleteFile)

/-- What a command sends. -/
def Command.bytes : Command E.Secret → List UInt8
  | .handshake secret => ecdhPubkeyCommand (E.publicKeyBytes secret)
  | .listFiles => fileListRequest 0
  | .deleteFile fileId => deleteFileCommand fileId

/-- The world with the given notifications in the queue, and nothing to come
after them. -/
def World.queue (w : World) (values : List (List UInt8)) : World :=
  { w with rx := values.map .notification }

/-- What an operation returns, without the world it leaves. -/
def outcome {α : Type} : EStateM.Result Fault World α → Except Fault α
  | .ok a _ => .ok a
  | .error e _ => .error e

/-- The notifications in `queued`, in front of the answer of a command, do not
change what it does: it returns what it returns for the answer alone, leaves
the same session key, and has emptied the queue. -/
structure Undisturbed (command : Command E.Secret) (env : Env) (w : World)
    (queued : List (List UInt8)) (answer : List UInt8) : Prop where
  result :
    outcome ((Call.exec C E profile ⟨command.op, env⟩).run
      (w.queue (queued ++ [answer]))) =
    outcome ((Call.exec C E profile ⟨command.op, env⟩).run (w.queue [answer]))
  sessionKey :
    (worldAfter ((Call.exec C E profile ⟨command.op, env⟩).run
      (w.queue (queued ++ [answer])))).sessionKey =
    (worldAfter ((Call.exec C E profile ⟨command.op, env⟩).run
      (w.queue [answer]))).sessionKey
  emptied :
    (worldAfter ((Call.exec C E profile ⟨command.op, env⟩).run
      (w.queue (queued ++ [answer])))).rx = []

/-! ## What a command takes -/

/-- Every command is an exchange that does not look at the channel behind it. -/
theorem exec_exchange (command : Command E.Secret) :
    ∃ k : List UInt8 → RecorderM Answer,
      (∀ env, Call.exec C E profile ⟨command.op, env⟩ =
        sendAndRecv env (command.bytes E) >>= k) ∧
      ∀ resp ds, Ignores (fun w : World => { w with rx := ds }) (k resp) := by
  cases command with
  | handshake secret =>
      obtain ⟨k, hrun, hk⟩ := handshake_exchange C E secret
      refine ⟨fun resp => do k resp; return .unit, ?_, ?_⟩
      · intro env
        simp only [Call.exec, Command.op, Command.bytes, hrun, bind_assoc]
      · exact fun resp ds => (hk resp ds).bind fun _ => Ignores.pure _
  | listFiles =>
      obtain ⟨k, hrun, hk⟩ := listFiles_exchange profile
      refine ⟨fun resp => do return .files (← k resp), ?_, ?_⟩
      · intro env
        simp only [Call.exec, Command.op, Command.bytes, hrun, bind_assoc]
      · exact fun resp ds => (hk resp).ignores.bind fun _ => Ignores.pure _
  | deleteFile fileId =>
      obtain ⟨k, hrun, hk⟩ := deleteFile_exchange fileId
      refine ⟨fun resp => do k resp; return .unit, ?_, ?_⟩
      · intro env
        simp only [Call.exec, Command.op, Command.bytes, hrun, bind_assoc]
      · exact fun resp ds => (hk resp).ignores.bind fun _ => Ignores.pure _

/-- **A command takes the notification at the head of the queue**, whatever it
is: it does what it does with that one alone, and leaves the others. -/
theorem exec_takes_head (command : Command E.Secret) {env : Env} (w : World)
    (value : List UInt8) (values : List (List UInt8)) (hwrite : env.write = none) :
    (Call.exec C E profile ⟨command.op, env⟩).run (w.queue (value :: values)) =
      mapState (fun w' => { w' with rx := values.map .notification })
        ((Call.exec C E profile ⟨command.op, env⟩).run (w.queue [value])) := by
  obtain ⟨k, hrun, hk⟩ := exec_exchange C E profile command
  rw [hrun, EStateM.run_bind, EStateM.run_bind,
    sendAndRecv_notification _ hwrite (w := w.queue (value :: values)) rfl,
    sendAndRecv_notification _ hwrite (w := w.queue [value]) rfl]
  exact hk value _ ((w.queue [value]).afterExchange (command.bytes E) value [])

/-- What a command leaves in the queue. -/
theorem exec_rx (command : Command E.Secret) {env : Env} (w : World)
    (value : List UInt8) (values : List (List UInt8)) (hwrite : env.write = none) :
    (worldAfter ((Call.exec C E profile ⟨command.op, env⟩).run
      (w.queue (value :: values)))).rx = values.map .notification := by
  rw [exec_takes_head C E profile command w value values hwrite]
  rcases (Call.exec C E profile ⟨command.op, env⟩).run (w.queue [value]) with
    ⟨answer, w'⟩ | ⟨e, w'⟩ <;> rfl

/-- A command that cannot be written leaves the queue as it is. -/
theorem exec_unsent (command : Command E.Secret) {env : Env} {e : String}
    (w : World) (hwrite : env.write = some e) :
    (Call.exec C E profile ⟨command.op, env⟩).run w = .error (.error (.ble e)) w := by
  obtain ⟨k, hrun, -⟩ := exec_exchange C E profile command
  simp only [hrun, sendAndRecv, send, hwrite, EStateM.run_bind, run_throw_fault]

/-- **When a queue does not disturb a command**: when the command is written,
and nothing is queued in front of its answer. -/
theorem exec_undisturbed_iff (command : Command E.Secret) (env : Env) (w : World)
    (queued : List (List UInt8)) (answer : List UInt8) :
    Undisturbed C E profile command env w queued answer ↔
      env.write = none ∧ queued = [] := by
  constructor
  · intro h
    have hempty := h.emptied
    rcases hwrite : env.write with _ | e
    · refine ⟨rfl, ?_⟩
      rcases queued with _ | ⟨value, values⟩
      · rfl
      · -- What is left ends with the answer itself.
        rw [List.cons_append, exec_rx C E profile command w value _ hwrite] at hempty
        simp at hempty
    · rw [exec_unsent C E profile command _ hwrite] at hempty
      simp [worldAfter, World.queue] at hempty
  · rintro ⟨hwrite, rfl⟩
    exact ⟨rfl, rfl, exec_rx C E profile command w answer [] hwrite⟩

/-! ## A deletion that was refused -/

/-- The answer of a device that refuses to delete a file. -/
def deleteRefused : List UInt8 := message 0 cmdTypeFile cmdDeleteFile []

/-- No queue of notifications of other kinds disturbs a command that is
written. -/
def OthersIgnored : Prop :=
  ∀ (command : Command E.Secret) (env : Env) (w : World)
    (queued : List (List UInt8)) (answer : List UInt8),
  env.write = none →
  (∀ value ∈ queued, ¬ IsResponse command.answerKind.1 command.answerKind.2 value) →
  IsResponse command.answerKind.1 command.answerKind.2 answer →
  Undisturbed C E profile command env w queued answer

/-- **A refused deletion is reported as done** when the end of an earlier
transfer is still in the queue, whatever the primitives are. -/
theorem delete_answered_by_others :
    ¬ ∃ (C : Ciphers) (E : Ecdh) (profile : Profile),
      OthersIgnored C E profile := by
  rintro ⟨C, E, profile, hclaim⟩
  have hothers : ∀ value ∈ [completeMessage],
      ¬ IsResponse cmdTypeFile cmdDeleteFile value := by
    intro value hvalue
    rw [List.mem_singleton.mp hvalue]
    decide
  have hresult := (hclaim (.deleteFile 1) .fine (.connected [])
    [completeMessage] deleteRefused rfl hothers
    (isResponse_message 0 cmdTypeFile cmdDeleteFile [])).result
  -- With the completion in front the deletion reports success, alone it fails.
  have hdone := deleteFile_of_success 1
    (w := (World.connected []).queue [completeMessage, deleteRefused])
    (show Env.fine.write = none from rfl) rfl (by decide) (by decide)
  have hrefused : ∀ w', (deleteFile .fine 1).run
      ((World.connected []).queue [deleteRefused]) ≠ .ok () w' := by
    intro w' hok
    obtain ⟨-, value, rest, hrx, -, hflag, -⟩ := deleteFile_ok hok
    cases hrx
    exact absurd hflag (by decide)
  rw [List.singleton_append, show (Command.deleteFile 1).op = .deleteFile 1 from rfl,
    exec_deleteFile C E profile, exec_deleteFile C E profile, hdone] at hresult
  rcases halone : (deleteFile .fine 1).run
      ((World.connected []).queue [deleteRefused]) with ⟨⟨⟩, w'⟩ | ⟨e, w'⟩
  · exact hrefused w' halone
  · rw [halone] at hresult
    cases hresult

end MicRs
