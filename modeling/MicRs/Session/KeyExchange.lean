import MicRs.Session.Eavesdrop

/-!
# Where the session key comes from

The session key is the one that the most recent verified exchange or
`set_session_key` established (`lastKey`): no other operation touches it, a
handshake that is not verified fails and leaves it alone, and without one a
download sends nothing. `session_keys` says so at every step of every session.
-/

namespace MicRs

open StateFrame

variable (C : Ciphers) (E : Ecdh) (profile : Profile)

/-! ## The key an operation establishes -/

/-- The shared secret of the exchange a handshake runs into, if it is
verified. -/
def exchangedSecret (env : Env) (secret : E.Secret) (w : World) :
    Option (Vector UInt8 32) :=
  match env.write, w.rx with
  | none, .notification resp :: _ =>
      if resp.length < 106 then none
      else
        match E.fromSec1Bytes ((resp.drop 9).take 65) with
        | .error _ => none
        | .ok devicePublic =>
            let sharedSecret := E.diffieHellman secret devicePublic
            if sharedSecret.toList = (resp.drop 74).take 32 then
              some sharedSecret
            else none
  | _, _ => none

/-- The key that a call establishes in world `w`. -/
def establishedKey (w : World) (call : Call E.Secret) :
    Option (Vector UInt8 32) :=
  match call.op with
  | .handshake secret =>
      (exchangedSecret E call.env secret w).map fun sharedSecret =>
        deriveSessionKey C sharedSecret.toList
  | .setSessionKey key => some key
  | _ => none

/-- The key most recently established in `steps`, or else the initial one. -/
def lastKey (initial : Option (Vector UInt8 32)) (steps : List (Step E.Secret)) :
    Option (Vector UInt8 32) :=
  (steps.filterMap fun step => establishedKey C E step.before step.call).getLast?.or
    initial

theorem exchangedSecret_of_verified {env : Env} {secret : E.Secret} {w : World}
    {resp : List UInt8} {rest : List Delivery} {devicePublic : E.PublicKey}
    (h : VerifiedExchange E env secret w resp rest devicePublic) :
    exchangedSecret E env secret w =
      some (E.diffieHellman secret devicePublic) := by
  have hlong : ¬ resp.length < 106 := Nat.not_lt.mpr h.length
  simp only [exchangedSecret, h.sent, h.received, hlong, h.point, h.shared,
    if_false, if_true]

theorem verified_of_exchangedSecret {env : Env} {secret : E.Secret} {w : World}
    {sharedSecret : Vector UInt8 32}
    (h : exchangedSecret E env secret w = some sharedSecret) :
    ∃ resp rest devicePublic,
      VerifiedExchange E env secret w resp rest devicePublic := by
  unfold exchangedSecret at h
  split at h
  · next hsent hrx =>
      split_ifs at h with hlen
      split at h
      · cases h
      · next devicePublic hpoint =>
          dsimp only at h
          split_ifs at h with hshared
          exact ⟨_, _, devicePublic, hsent, hrx, Nat.not_lt.mp hlen, hpoint,
            hshared⟩
  · cases h

theorem lastKey_append (initial : Option (Vector UInt8 32))
    (steps : List (Step E.Secret)) (step : Step E.Secret) :
    lastKey C E initial (steps ++ [step]) =
      (establishedKey C E step.before step.call).or
        (lastKey C E initial steps) := by
  rw [lastKey, lastKey, List.filterMap_append, List.getLast?_append,
    Option.or_assoc]
  congr 1
  rcases hkey : establishedKey C E step.before step.call with _ | key <;>
    simp [hkey]

theorem lastKey_cons (initial : Option (Vector UInt8 32))
    (step : Step E.Secret) (steps : List (Step E.Secret)) :
    lastKey C E initial (step :: steps) =
      lastKey C E ((establishedKey C E step.before step.call).or initial)
        steps := by
  simp only [lastKey, List.filterMap_cons]
  rcases establishedKey C E step.before step.call with _ | key
  · rw [Option.none_or]
  · rw [List.getLast?_cons]
    cases (List.filterMap _ steps).getLast? <;> rfl

/-! ## One operation -/

theorem listFiles_keeps (env : Env) :
    Keeps World.sessionKey (listFiles profile env) := by
  obtain ⟨k, hlist, hk⟩ := listFiles_exchange profile
  rw [hlist]
  exact (sendAndRecv_keeps ignoresChannel_sessionKey env _).bind fun resp =>
    (hk resp).keeps

theorem deleteFile_keeps (env : Env) (fileId : UInt32) :
    Keeps World.sessionKey (deleteFile env fileId) := by
  obtain ⟨k, hdelete, hk⟩ := deleteFile_exchange fileId
  rw [hdelete]
  exact (sendAndRecv_keeps ignoresChannel_sessionKey env _).bind fun resp =>
    (hk resp).keeps

/-- Without a key a download does nothing at all. -/
theorem recorderDownloadFile_no_key {progress : Callback} {env : Env}
    {fileId : UInt32} {outputDir : Path} {w : World} (h : w.sessionKey = none) :
    (recorderDownloadFileWith C profile progress env fileId outputDir).run w =
      .error (.error (.handshakeFailed
        "no session key — call handshake() first")) w := by
  simp [recorderDownloadFileWith, h]

theorem recorderDownloadFile_keeps (progress : Callback) (env : Env)
    (fileId : UInt32) (outputDir : Path) :
    Keeps World.sessionKey
      (recorderDownloadFileWith C profile progress env fileId outputDir) := by
  unfold recorderDownloadFileWith
  apply Keeps.bind Keeps.get
  intro w
  rcases w.sessionKey with _ | key
  · exact Keeps.throw _
  · exact downloadFile_keeps ignoresChannel_sessionKey ignoresDisk_sessionKey
      C profile progress env fileId key outputDir

theorem worldAfter_eq {α : Type} (r : EStateM.Result Fault World α) :
    worldAfter r = finalState r := by
  rcases r with ⟨a, w⟩ | ⟨e, w⟩ <;> rfl

/-- **A handshake establishes the key of a verified exchange**, and keeps the
key otherwise. -/
theorem handshake_sessionKey (env : Env) (secret : E.Secret) (w : World) :
    (finalState ((handshake C E env secret).run w)).sessionKey =
      ((exchangedSecret E env secret w).map fun sharedSecret =>
        deriveSessionKey C sharedSecret.toList).or w.sessionKey := by
  rcases handshake_cases C E env secret w with
    ⟨resp, rest, devicePublic, hverified⟩ | ⟨e, w', herror, hkey⟩
  · rw [handshake_verified C E hverified,
      exchangedSecret_of_verified E hverified, Option.map_some, hverified.shared]
    rfl
  · have hnone : exchangedSecret E env secret w = none := by
      rcases hsecret : exchangedSecret E env secret w with _ | sharedSecret
      · rfl
      · obtain ⟨resp, rest, devicePublic, hverified⟩ :=
          verified_of_exchangedSecret E hsecret
        rw [handshake_verified C E hverified] at herror
        cases herror
    rw [hnone, herror]
    exact hkey

/-- **What an operation does to the session key.** -/
theorem exec_sessionKey (call : Call E.Secret) (w : World) :
    (worldAfter ((call.exec C E profile).run w)).sessionKey =
      (establishedKey C E w call).or w.sessionKey := by
  obtain ⟨op, env⟩ := call
  rw [worldAfter_eq]
  have hkeeps : ∀ {α : Type} {x : RecorderM α} {f : α → Answer},
      Keeps World.sessionKey x → Keeps World.sessionKey (do return f (← x)) :=
    fun hx => hx.bind fun _ => Keeps.pure _
  cases op with
  | handshake secret =>
      show (finalState ((handshake C E env secret >>=
        fun _ => pure Answer.unit).run w)).sessionKey = _
      rw [show establishedKey C E w ⟨.handshake secret, env⟩ =
        (exchangedSecret E env secret w).map fun sharedSecret =>
          deriveSessionKey C sharedSecret.toList from rfl,
        ← handshake_sessionKey, EStateM.run_bind]
      rcases (handshake C E env secret).run w with ⟨_, w'⟩ | ⟨e, w'⟩ <;> rfl
  | setSessionKey key => rfl
  | listFiles => exact hkeeps (listFiles_keeps profile env) w
  | downloadFile fileId outputDir =>
      exact hkeeps (recorderDownloadFile_keeps C profile _ env fileId outputDir) w
  | deleteFile fileId => exact hkeeps (deleteFile_keeps env fileId) w
  | rawCommand data =>
      exact hkeeps (sendAndRecv_keeps ignoresChannel_sessionKey env data) w
  | rawSend data =>
      exact hkeeps (send_keeps ignoresChannel_sessionKey env data) w

/-! ## Whole sessions -/

/-- **Before every step the session key is the one most recently
established**; by induction over the steps before it. -/
theorem session_lastKey {calls : List (Call E.Secret)} {w : World}
    {before after : List (Step E.Secret)} {step : Step E.Secret}
    (h : session C E profile w calls = before ++ step :: after) :
    step.before.sessionKey = lastKey C E w.sessionKey before := by
  induction before generalizing w calls with
  | nil =>
      obtain ⟨call, calls, -, rfl, -⟩ := session_eq_cons C E profile h
      rfl
  | cons first before ih =>
      obtain ⟨call, calls, -, rfl, hrest⟩ := session_eq_cons C E profile h
      rw [lastKey_cons, ← exec_sessionKey C E profile]
      rcases hrest with hnil | hrest
      · simp at hnil
      · exact ih hrest.symm

/-- A handshake succeeds exactly if its exchange is verified, and sets the key
then; otherwise it is an error that keeps the key. -/
def Step.VerifiesHandshake (step : Step E.Secret) : Prop :=
  ∀ secret, step.call.op = .handshake secret →
    ((∃ w', step.result = .ok .unit w') ↔
      ∃ resp rest devicePublic, VerifiedExchange E step.call.env secret
        step.before resp rest devicePublic) ∧
    (∀ resp rest devicePublic,
      VerifiedExchange E step.call.env secret step.before resp rest
        devicePublic →
      (worldAfter step.result).sessionKey = some (deriveSessionKey C
        (E.diffieHellman secret devicePublic).toList)) ∧
    ((¬ ∃ resp rest devicePublic, VerifiedExchange E step.call.env secret
        step.before resp rest devicePublic) →
      ∃ e w', step.result = .error (.error e) w' ∧
        w'.sessionKey = step.before.sessionKey)

/-- A download without a session key is an error before anything is sent. -/
def Step.DownloadsWithKey {Secret : Type} (step : Step Secret) : Prop :=
  ∀ fileId outputDir, step.call.op = .downloadFile fileId outputDir →
    step.before.sessionKey = none →
    ∃ e, step.result = .error (.error e) step.before

variable {E}

theorem Step.verifiesHandshake {step : Step E.Secret}
    (hresult : step.result = (step.call.exec C E profile).run step.before) :
    step.VerifiesHandshake C E := by
  obtain ⟨before, ⟨op, env⟩, result⟩ := step
  intro secret hop
  change op = .handshake secret at hop
  subst hop
  change result = (handshake C E env secret >>= fun _ => pure Answer.unit).run
    before at hresult
  rw [EStateM.run_bind] at hresult
  rcases handshake_cases C E env secret before with
    ⟨resp, rest, devicePublic, hverified⟩ | ⟨e, w', herror, hkey⟩
  · rw [handshake_verified C E hverified] at hresult
    subst hresult
    refine ⟨⟨fun _ => ⟨resp, rest, devicePublic, hverified⟩, fun _ => ⟨_, rfl⟩⟩,
      ?_, fun hno => absurd ⟨resp, rest, devicePublic, hverified⟩ hno⟩
    intro resp' rest' devicePublic' hverified'
    -- What arrived is what `hverified` took.
    have hrx := hverified.received.symm.trans hverified'.received
    cases hrx
    rw [hverified'.shared]
    rfl
  · have hno : ∀ resp rest devicePublic,
        ¬ VerifiedExchange E env secret before resp rest devicePublic := by
      intro resp rest devicePublic hverified
      rw [handshake_verified C E hverified] at herror
      cases herror
    rw [herror] at hresult
    subst hresult
    refine ⟨⟨?_, ?_⟩, ?_, fun _ => ⟨e, w', rfl, hkey⟩⟩
    · rintro ⟨w, hok⟩
      cases hok
    · rintro ⟨resp, rest, devicePublic, hverified⟩
      exact absurd hverified (hno resp rest devicePublic)
    · intro resp rest devicePublic hverified
      exact absurd hverified (hno resp rest devicePublic)

theorem Step.downloadsWithKey {step : Step E.Secret}
    (hresult : step.result = (step.call.exec C E profile).run step.before) :
    step.DownloadsWithKey := by
  obtain ⟨before, ⟨op, env⟩, result⟩ := step
  intro fileId outputDir hop hkey
  change op = .downloadFile fileId outputDir at hop
  subst hop
  change result = (recorderDownloadFile C profile env fileId outputDir >>=
    fun path => pure (.path path)).run before at hresult
  rw [EStateM.run_bind, recorderDownloadFile, recorderDownloadFile_no_key C profile hkey] at hresult
  exact ⟨_, hresult⟩

/-- **The session key only comes from a verified exchange or from
`set_session_key`**: at every step of every session it is the key most recently
established, before the step and after it; a handshake succeeds exactly if its
exchange is verified and otherwise keeps the key; and without a key a download
sends nothing. -/
theorem session_keys {calls : List (Call E.Secret)} {w : World}
    {before after : List (Step E.Secret)} {step : Step E.Secret}
    (h : session C E profile w calls = before ++ step :: after) :
    step.before.sessionKey = lastKey C E w.sessionKey before ∧
      (worldAfter step.result).sessionKey =
        lastKey C E w.sessionKey (before ++ [step]) ∧
      step.VerifiesHandshake C E ∧ step.DownloadsWithKey := by
  have hbefore := session_lastKey C E profile h
  have hmem : step ∈ session C E profile w calls := by
    rw [h]
    exact List.mem_append_right _ List.mem_cons_self
  have hresult := session_result C E profile hmem
  refine ⟨hbefore, ?_, Step.verifiesHandshake C profile hresult,
    Step.downloadsWithKey C profile hresult⟩
  rw [lastKey_append, ← hbefore, hresult]
  exact exec_sessionKey C E profile step.call step.before

/-- A verified exchange and the download after it. -/
theorem session_keys_exchange : ∃ first second : Step sampleEcdh.Secret,
    session sampleCiphers sampleEcdh .release exchangeWorld
        [⟨.handshake (), .fine⟩, ⟨.downloadFile 1 [], .fine⟩] =
      [first] ++ second :: [] ∧
    second.before.sessionKey =
      lastKey sampleCiphers sampleEcdh exchangeWorld.sessionKey [first] ∧
    (worldAfter second.result).sessionKey =
      lastKey sampleCiphers sampleEcdh exchangeWorld.sessionKey
        ([first] ++ [second]) ∧
    second.VerifiesHandshake sampleCiphers sampleEcdh ∧
    second.DownloadsWithKey := by
  obtain ⟨w₁, w₂, hexchange⟩ := recordsOver_exchangeWorld
  have hfirst : (Call.exec sampleCiphers sampleEcdh .release
      ⟨.handshake (), .fine⟩).run exchangeWorld = .ok .unit w₁ := by
    simp only [Call.exec, EStateM.run_bind, hexchange.handshake]
    rfl
  have hsecond : (Call.exec sampleCiphers sampleEcdh .release
      ⟨.downloadFile 1 [], .fine⟩).run w₁ = .ok (.path (opusPath [] 1)) w₂ := by
    simp only [Call.exec, EStateM.run_bind, hexchange.download]
    rfl
  have hsession := session_cons_ok sampleCiphers sampleEcdh .release
    [⟨.downloadFile 1 [], .fine⟩] hfirst
  rw [session_cons_ok sampleCiphers sampleEcdh .release [] hsecond] at hsession
  exact ⟨_, _, hsession, session_keys sampleCiphers .release
    (show _ = [_] ++ _ :: [] from hsession)⟩

end MicRs
