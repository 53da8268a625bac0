import MicRs.Model.Recorder
import MicRs.Transfer.Frames
import MicRs.Transfer.Outcome

/-!
# What the operations do

One lemma for each operation that exchanges a command for the next
notification: what it took from the channel when it succeeded, and what it left
behind. `session_result` says that every step of a session is a run of its
operation from the world before it.
-/

namespace MicRs

open MessageLoop StateFrame

variable (C : Ciphers) (E : Ecdh) (profile : Profile)

/-! ## One exchange -/

/-- The world after a command and the notification that answered it. -/
def World.afterExchange (w : World) (command value : List UInt8)
    (rest : List Delivery) : World :=
  { w with
    rx := rest
    written := w.written ++ [command]
    received := w.received ++ [value] }

theorem sendAndRecv_notification {env : Env} {w : World}
    {value : List UInt8} {rest : List Delivery} (command : List UInt8)
    (hwrite : env.write = none) (hrx : w.rx = .notification value :: rest) :
    (sendAndRecv env command).run w =
      .ok value (w.afterExchange command value rest) := by
  rw [sendAndRecv, EStateM.run_bind, send_ok _ w hwrite]
  simp only [recv_run, hrx]
  rfl

/-- **An exchange takes the notification at the head of the channel**, whatever
it answers. -/
theorem sendAndRecv_ok {env : Env} {w w' : World} {command value : List UInt8}
    (h : (sendAndRecv env command).run w = .ok value w') :
    env.write = none ∧ ∃ rest, w.rx = .notification value :: rest ∧
      w' = w.afterExchange command value rest := by
  rcases hwrite : env.write with _ | e
  · rw [sendAndRecv, EStateM.run_bind, send_ok _ w hwrite] at h
    simp only [recv_run] at h
    rcases hrx : w.rx with _ | ⟨value' | _, rest⟩
    · simp [hrx] at h
    · simp only [hrx, EStateM.Result.ok.injEq] at h
      obtain ⟨rfl, rfl⟩ := h
      exact ⟨rfl, rest, rfl, rfl⟩
    · simp [hrx] at h
  · simp [sendAndRecv, send, hwrite] at h

/-- An exchange fails with an error, never with a panic. -/
theorem sendAndRecv_error {env : Env} {w w' : World} {command : List UInt8}
    {fault : Fault} (h : (sendAndRecv env command).run w = .error fault w') :
    ∃ e, fault = .error e := by
  rcases hwrite : env.write with _ | e
  · rw [sendAndRecv, EStateM.run_bind, send_ok _ w hwrite] at h
    simp only [recv_run] at h
    rcases hrx : w.rx with _ | ⟨value | _, rest⟩ <;> simp only [hrx] at h <;>
      cases h
    · exact ⟨_, rfl⟩
    · exact ⟨_, rfl⟩
  · simp only [sendAndRecv, send, hwrite, EStateM.run_bind, run_throw_fault] at h
    cases h
    exact ⟨_, rfl⟩

/-! ## Handshake -/

/-- A key exchange that proves itself: the command is written, and the answer
carries a valid public key and the shared secret itself, in the clear. -/
structure VerifiedExchange (env : Env) (secret : E.Secret) (w : World)
    (resp : List UInt8) (rest : List Delivery) (devicePublic : E.PublicKey) :
    Prop where
  sent : env.write = none
  received : w.rx = .notification resp :: rest
  length : 106 ≤ resp.length
  point : E.fromSec1Bytes ((resp.drop 9).take 65) = .ok devicePublic
  shared : (E.diffieHellman secret devicePublic).toList =
    (resp.drop 74).take 32

/-- The world after a verified exchange. -/
def World.afterHandshake (w : World) (secret : E.Secret) (resp : List UInt8)
    (rest : List Delivery) : World :=
  { w.afterExchange (ecdhPubkeyCommand (E.publicKeyBytes secret)) resp rest with
    sessionKey := some (deriveSessionKey C ((resp.drop 74).take 32)) }

theorem handshake_verified {env : Env} {secret : E.Secret} {w : World}
    {resp : List UInt8} {rest : List Delivery} {devicePublic : E.PublicKey}
    (h : VerifiedExchange E env secret w resp rest devicePublic) :
    (handshake C E env secret).run w =
      .ok () (w.afterHandshake C E secret resp rest) := by
  have hshort : ¬ resp.length < 106 := Nat.not_lt.mpr h.length
  rw [handshake, EStateM.run_bind,
    sendAndRecv_notification _ h.sent h.received]
  simp [parseEcdhResponse_eq, hshort, EcdhKeypair.deriveSharedSecret,
    EcdhKeypair.generate, h.point, h.shared, World.afterHandshake]

/-- **All a handshake can do**: a verified exchange sets the key, and anything
else is an error that leaves the key alone. -/
theorem handshake_cases (env : Env) (secret : E.Secret) (w : World) :
    (∃ resp rest devicePublic,
      VerifiedExchange E env secret w resp rest devicePublic) ∨
    ∃ e w', (handshake C E env secret).run w = .error (.error e) w' ∧
      w'.sessionKey = w.sessionKey := by
  rw [handshake, EStateM.run_bind]
  rcases hexchange : (sendAndRecv env (ecdhPubkeyCommand
      (EcdhKeypair.generate (E := E) secret).publicKeyBytes)).run w with
    ⟨resp, w₁⟩ | ⟨e, w₁⟩
  · have hkey := (sendAndRecv_keeps ignoresChannel_sessionKey env _).ok hexchange
    obtain ⟨hwrite, rest, hrx, -⟩ := sendAndRecv_ok hexchange
    by_cases hlen : resp.length < 106
    · right
      simp [parseEcdhResponse_eq, hlen, hkey]
    · rcases hpoint : E.fromSec1Bytes ((resp.drop 9).take 65) with e | devicePublic
      · right
        simp [parseEcdhResponse_eq, hlen, EcdhKeypair.deriveSharedSecret,
          EcdhKeypair.generate, hpoint, hkey]
      · by_cases hshared : (E.diffieHellman secret devicePublic).toList =
            (resp.drop 74).take 32
        · exact Or.inl ⟨resp, rest, devicePublic, hwrite, hrx,
            Nat.not_lt.mp hlen, hpoint, hshared⟩
        · right
          simp [parseEcdhResponse_eq, hlen, EcdhKeypair.deriveSharedSecret,
            EcdhKeypair.generate, hpoint, hshared, hkey]
  · obtain ⟨e, rfl⟩ := sendAndRecv_error hexchange
    exact Or.inr ⟨e, w₁, rfl,
      (sendAndRecv_keeps ignoresChannel_sessionKey env _).error hexchange⟩

/-- **What a successful handshake has checked.** -/
theorem handshake_ok {env : Env} {secret : E.Secret} {w w' : World}
    (h : (handshake C E env secret).run w = .ok () w') :
    ∃ resp rest devicePublic,
      VerifiedExchange E env secret w resp rest devicePublic ∧
      w' = w.afterHandshake C E secret resp rest := by
  rcases handshake_cases C E env secret w with
    ⟨resp, rest, devicePublic, hverified⟩ | ⟨e, w₁, herror, -⟩
  · rw [handshake_verified C E hverified] at h
    cases h
    exact ⟨resp, rest, devicePublic, hverified, rfl⟩
  · rw [herror] at h
    cases h

/-- A handshake is an exchange, and behind it nothing but the key is set. -/
theorem handshake_exchange (secret : E.Secret) :
    ∃ k : List UInt8 → RecorderM Unit,
      (∀ env, handshake C E env secret = sendAndRecv env
        (ecdhPubkeyCommand (E.publicKeyBytes secret)) >>= k) ∧
        ∀ resp ds, Ignores (fun w : World => { w with rx := ds }) (k resp) := by
  refine ⟨_, fun _ => rfl, ?_⟩
  intro resp ds
  apply Ignores.bind (stateless_rust _).ignores
  intro ecdhResp
  rcases ecdhResp with _ | ecdhResp
  · exact Ignores.throw _
  · dsimp only
    apply Ignores.bind (stateless_result _).ignores
    intro sharedSecret
    split
    · exact (Ignores.throw _).bind fun _ => Ignores.modify fun _ => rfl
    · exact Ignores.modify fun _ => rfl

/-! ## Listing -/

/-- **When a listing succeeds**: the notification it took is a 1A0E one, and
its list is parsed. -/
theorem listFiles_ok {env : Env} {files : List FileInfo} {w w' : World}
    (h : (listFiles profile env).run w = .ok files w') :
    env.write = none ∧ ∃ resp rest, w.rx = .notification resp :: rest ∧
      IsResponse cmdTypeFile cmdGetAllFiles resp ∧
      parseFileList profile resp = .ok (some files) ∧
      w' = w.afterExchange (fileListRequest 0) resp rest := by
  rw [listFiles, EStateM.run_bind] at h
  rcases hexchange : (sendAndRecv env (fileListRequest 0)).run w with
    ⟨resp, w₁⟩ | ⟨e, w₁⟩
  · rw [hexchange] at h
    obtain ⟨hwrite, rest, hrx, rfl⟩ := sendAndRecv_ok hexchange
    by_cases hlen : resp.length < 7
    · simp [parseResponse_eq, hlen] at h
    · by_cases hkind : byteAt resp 5 ≠ cmdTypeFile ∨
          byteAt resp 6 ≠ cmdGetAllFiles
      · simp [parseResponse_eq, hlen, ResponseHeader.read, hkind] at h
      · rcases hparse : parseFileList profile resp with p | _ | files'
        · simp [parseResponse_eq, hlen, ResponseHeader.read, hkind, hparse] at h
        · simp [parseResponse_eq, hlen, ResponseHeader.read, hkind, hparse] at h
        · simp [parseResponse_eq, hlen, ResponseHeader.read, hkind, hparse] at h
          obtain ⟨rfl, rfl⟩ := h
          rw [not_or, not_not, not_not] at hkind
          exact ⟨hwrite, resp, rest, hrx, ⟨Nat.not_lt.mp hlen, hkind⟩, hparse,
            rfl⟩
  · rw [hexchange] at h
    cases h

theorem listFiles_of_response {env : Env} {files : List FileInfo} {w : World}
    {resp : List UInt8} {rest : List Delivery} (hwrite : env.write = none)
    (hrx : w.rx = .notification resp :: rest)
    (hkind : IsResponse cmdTypeFile cmdGetAllFiles resp)
    (hparse : parseFileList profile resp = .ok (some files)) :
    (listFiles profile env).run w =
      .ok files (w.afterExchange (fileListRequest 0) resp rest) := by
  obtain ⟨hlen, htype, hid⟩ := hkind
  have hlong : ¬ resp.length < 7 := Nat.not_lt.mpr hlen
  rw [listFiles, EStateM.run_bind, sendAndRecv_notification _ hwrite hrx]
  simp [parseResponse_eq, hlong, ResponseHeader.read, htype, hid, hparse]

/-- A listing is an exchange, and the world is not looked at behind it. -/
theorem listFiles_exchange : ∃ k : List UInt8 → RecorderM (List FileInfo),
    (∀ env, listFiles profile env =
      sendAndRecv env (fileListRequest 0) >>= k) ∧
      ∀ resp, Stateless (k resp) := by
  refine ⟨_, fun _ => rfl, ?_⟩
  intro resp
  apply Stateless.bind (stateless_rust _)
  rintro (_ | header)
  · exact Stateless.throw _
  · dsimp only
    split
    -- The early return is in front of the same continuation.
    on_goal 1 =>
      apply Stateless.bind (Stateless.throw _)
      intro _
    all_goals
      apply Stateless.bind (stateless_rust _)
      intro files
      rcases files with _ | files
      · exact Stateless.throw _
      · exact Stateless.pure _

/-! ## Deletion -/

/-- **When a deletion reports success**: the notification it took has at least
seven bytes and success nibble 1, of whatever type and id. -/
theorem deleteFile_ok {env : Env} {fileId : UInt32} {w w' : World}
    (h : (deleteFile env fileId).run w = .ok () w') :
    env.write = none ∧ ∃ value rest, w.rx = .notification value :: rest ∧
      7 ≤ value.length ∧ successNibble value = 1 ∧
      w' = w.afterExchange (deleteFileCommand fileId) value rest := by
  rw [deleteFile, EStateM.run_bind] at h
  rcases hexchange : (sendAndRecv env (deleteFileCommand fileId)).run w with
    ⟨value, w₁⟩ | ⟨e, w₁⟩
  · rw [hexchange] at h
    obtain ⟨hwrite, rest, hrx, rfl⟩ := sendAndRecv_ok hexchange
    by_cases hlen : value.length < 7
    · simp [parseResponse_eq, hlen] at h
    · by_cases hflag : successNibble value = 1
      · have hread : (ResponseHeader.read value).successFlag = 1 := hflag
        simp [parseResponse_eq, hlen, hread] at h
        exact ⟨hwrite, value, rest, hrx, Nat.not_lt.mp hlen, hflag, h.symm⟩
      · have hread : (ResponseHeader.read value).successFlag ≠ 1 := hflag
        simp [parseResponse_eq, hlen, hread] at h
  · rw [hexchange] at h
    cases h

theorem deleteFile_of_success {env : Env} (fileId : UInt32) {w : World}
    {value : List UInt8} {rest : List Delivery} (hwrite : env.write = none)
    (hrx : w.rx = .notification value :: rest) (hlen : 7 ≤ value.length)
    (hflag : successNibble value = 1) :
    (deleteFile env fileId).run w =
      .ok () (w.afterExchange (deleteFileCommand fileId) value rest) := by
  have hread : (ResponseHeader.read value).successFlag = 1 := hflag
  have hlong : ¬ value.length < 7 := Nat.not_lt.mpr hlen
  rw [deleteFile, EStateM.run_bind, sendAndRecv_notification _ hwrite hrx]
  simp [parseResponse_eq, hlong, hread]

/-- A deletion is an exchange, and the world is not looked at behind it. -/
theorem deleteFile_exchange (fileId : UInt32) :
    ∃ k : List UInt8 → RecorderM Unit,
      (∀ env, deleteFile env fileId =
        sendAndRecv env (deleteFileCommand fileId) >>= k) ∧
        ∀ resp, Stateless (k resp) := by
  refine ⟨_, fun _ => rfl, ?_⟩
  intro resp
  apply Stateless.bind (stateless_rust _)
  rintro (_ | header)
  · exact Stateless.throw _
  · dsimp only
    split
    · exact Stateless.throw _
    · exact Stateless.pure _

/-! ## Download -/

/-- A download through the recorder uses its session key. -/
theorem recorderDownloadFile_key {progress : Callback} {env : Env}
    {fileId : UInt32} {outputDir : Path} {w : World} {key : Vector UInt8 32}
    (hkey : w.sessionKey = some key) :
    (recorderDownloadFileWith C profile progress env fileId outputDir).run w =
      (downloadFileWith C profile progress env fileId key outputDir).run w := by
  simp [recorderDownloadFileWith, hkey]

/-- A download that meets a silence gives up, and leaves what comes after the
silence to the next operation. -/
theorem downloadFile_silence {env : Env} {fileId : UInt32}
    {sessionKey : Vector UInt8 32} {outputDir : Path} {w : World}
    {rest : List Delivery} (hwrite : env.write = none)
    (hrx : w.rx = .silence :: rest) :
    (downloadFile C profile env fileId sessionKey outputDir).run w =
      .error (.error .timeout)
        { w with
          rx := rest, written := w.written ++ [fileHeaderRequest fileId 0] } := by
  have hcount : rest.length + 1 - rest.length = 1 := by omega
  have hwait : (recvUntil headerBody ()).run
      { w with written := w.written ++ [fileHeaderRequest fileId 0] } =
      .error (.error .timeout)
        { w with
          rx := rest, written := w.written ++ [fileHeaderRequest fileId 0] } := by
    rw [recvUntil_run]
    simp only [hrx]
    rw [run_cons_stop (s := ((), w.log)) (r := (.error (.error .timeout), w.log))
      rest rfl]
    simp [World.finish, World.after, hcount]
  simp only [downloadFileWith, EStateM.run_bind, send_ok _ w hwrite, hwait]

/-! ## Sessions -/

theorem session_cons_ok {call : Call E.Secret} {w w' : World} {answer : Answer}
    (calls : List (Call E.Secret))
    (h : (call.exec C E profile).run w = .ok answer w') :
    session C E profile w (call :: calls) =
      ⟨w, call, .ok answer w'⟩ :: session C E profile w' calls := by
  rw [session, h]
  rfl

theorem session_cons_error {call : Call E.Secret} {w w' : World}
    {e : RecorderError} (calls : List (Call E.Secret))
    (h : (call.exec C E profile).run w = .error (.error e) w') :
    session C E profile w (call :: calls) =
      ⟨w, call, .error (.error e) w'⟩ :: session C E profile w' calls := by
  rw [session, h]
  rfl

/-- A download as an operation of a session. -/
theorem exec_downloadFile {env : Env} {fileId : UInt32} {outputDir : Path}
    {w : World} {key : Vector UInt8 32} (hkey : w.sessionKey = some key) :
    (Call.exec C E profile ⟨.downloadFile fileId outputDir, env⟩).run w =
      match (downloadFile C profile env fileId key outputDir).run w with
      | .ok path w' => .ok (.path path) w'
      | .error e w' => .error e w' := by
  simp only [Call.exec, EStateM.run_bind,
    recorderDownloadFile, recorderDownloadFile_key C profile hkey]
  rcases (downloadFile C profile env fileId key outputDir).run w with
    ⟨path, w'⟩ | ⟨e, w'⟩ <;> rfl

theorem exec_downloadFile_ok {env : Env} {fileId : UInt32} {outputDir : Path}
    {w w' : World} {answer : Answer}
    (h : (Call.exec C E profile ⟨.downloadFile fileId outputDir, env⟩).run w =
      .ok answer w') :
    ∃ key path, w.sessionKey = some key ∧ answer = .path path ∧
      (downloadFile C profile env fileId key outputDir).run w =
        .ok path w' := by
  rcases hkey : w.sessionKey with _ | key
  · simp [Call.exec, recorderDownloadFileWith, hkey] at h
  · rw [exec_downloadFile C E profile hkey] at h
    rcases hrun : (downloadFile C profile env fileId key outputDir).run w with
      ⟨path, w₁⟩ | ⟨e, w₁⟩
    · rw [hrun] at h
      cases h
      exact ⟨key, path, rfl, rfl, hrun⟩
    · rw [hrun] at h
      cases h

/-- A deletion as an operation of a session. -/
theorem exec_deleteFile {env : Env} {fileId : UInt32} {w : World} :
    (Call.exec C E profile ⟨.deleteFile fileId, env⟩).run w =
      match (deleteFile env fileId).run w with
      | .ok () w' => .ok .unit w'
      | .error e w' => .error e w' := by
  simp only [Call.exec, EStateM.run_bind]
  rcases (deleteFile env fileId).run w with ⟨_, w'⟩ | ⟨e, w'⟩ <;> rfl

/-- The first step of a session, and the steps after it unless it panics. -/
theorem session_eq_cons {calls : List (Call E.Secret)} {w : World}
    {step : Step E.Secret} {steps : List (Step E.Secret)}
    (h : session C E profile w calls = step :: steps) :
    ∃ call calls', calls = call :: calls' ∧
      step = ⟨w, call, (call.exec C E profile).run w⟩ ∧
      (steps = [] ∨ steps = session C E profile
        (worldAfter ((call.exec C E profile).run w)) calls') := by
  rcases calls with _ | ⟨call, calls⟩
  · cases h
  · rw [session] at h
    obtain ⟨rfl, rfl⟩ := List.cons.inj h
    refine ⟨call, calls, rfl, rfl, ?_⟩
    rcases hresult : (call.exec C E profile).run w with
      ⟨answer, w'⟩ | ⟨e | p, w'⟩
    · exact Or.inr rfl
    · exact Or.inr rfl
    · exact Or.inl rfl

/-- Every step of a session is a run of its operation. -/
theorem session_result {calls : List (Call E.Secret)} {w : World}
    {step : Step E.Secret} (h : step ∈ session C E profile w calls) :
    step.result = (step.call.exec C E profile).run step.before := by
  induction calls generalizing w with
  | nil => cases h
  | cons call calls ih =>
      rcases hsteps : session C E profile w (call :: calls) with _ | ⟨first, steps⟩
      · rw [hsteps] at h
        cases h
      · rw [hsteps] at h
        obtain ⟨_, _, hcalls, rfl, hrest⟩ := session_eq_cons C E profile hsteps
        cases hcalls
        rcases List.mem_cons.mp h with rfl | h
        · rfl
        · rcases hrest with rfl | rfl
          · cases h
          · exact ih h

end MicRs
