import MicRs.Session.Operations
import MicRs.Session.Replay
import MicRs.Transfer.Saved

/-!
# Listening in

The device answers the key exchange with the shared secret in the clear, and
everything after it is decrypted with keys derived from that secret. So whoever
hears the bytes on the air computes the recording (`eavesdrop_recovers`): derive
the session key from the handshake answer, and run the download again on the
notifications that followed.
-/

namespace MicRs

variable (C : Ciphers)

/-- What a passive listener makes of the commands written and the notifications
received: nothing but HKDF and AES is computed, and no key pair is known. -/
def eavesdrop (written received : List (List UInt8)) : Option (List UInt8) :=
  match received with
  | [] => none
  | resp :: values =>
      let sessionKey := deriveSessionKey C ((resp.drop 74).take 32)
      let fileId := u32FromLeBytes (arrayAt 4 (written.getD 1 []) 13)
      (worldAfter ((downloadFile C .release .fine fileId sessionKey []).run
        (.connected (values.map .notification)))).disk (opusPath [] fileId)

/-- A handshake and then a download on a fresh connection, both successful,
with code 0 in the accepted header. -/
structure RecordsOver (E : Ecdh) (profile : Profile) (secret : E.Secret)
    (env₁ env₂ : Env) (fileId : UInt32) (outputDir path : Path)
    (w w₁ w₂ : World) : Prop where
  written : w.written = []
  received : w.received = []
  log : w.log = ⟨[], []⟩
  handshake : (handshake C E env₁ secret).run w = .ok () w₁
  download : (recorderDownloadFile C profile env₂ fileId outputDir).run w₁ =
    .ok path w₂
  header : ∃ hdr, acceptedHeader env₂ fileId w₁ = some hdr ∧ hdr.code = 0

/-! ## What the transcript holds -/

/-- The request of a download names its file. -/
theorem fileHeaderRequest_fileId (fileId offset : UInt32) :
    u32FromLeBytes (arrayAt 4 (fileHeaderRequest fileId offset) 13) =
      fileId := by
  obtain ⟨front, last, hfront, hcommand⟩ := buildCommand_payload cmdTypeFile
    cmdFileHeader (u32ToLeBytes offset ++ u32ToLeBytes fileId ++ [0x00])
  have hrequest : fileHeaderRequest fileId offset =
      (front ++ u32ToLeBytes offset) ++
        (u32ToLeBytes fileId ++ ([0x00] ++ [last])) := by
    rw [fileHeaderRequest, hcommand]
    simp only [List.append_assoc]
  have hlen : (front ++ u32ToLeBytes offset).length = 13 := by simp [hfront]
  apply u32FromLeBytes_toLeBytes
  rw [toList_arrayAt (by simp [hrequest, hfront])]
  exact field_of_append _ _ _ hrequest hlen (length_u32ToLeBytes fileId)

variable {C} in
/-- **The listener writes the file the recorder writes.** -/
theorem RecordsOver.eavesdrop_eq {E : Ecdh} {profile : Profile}
    {secret : E.Secret} {env₁ env₂ : Env} {fileId : UInt32}
    {outputDir path : Path} {w w₁ w₂ : World}
    (h : RecordsOver C E profile secret env₁ env₂ fileId outputDir path w w₁
      w₂) :
    ∃ bytes, w₂.disk path = some bytes ∧
      eavesdrop C w₂.written w₂.received = some bytes := by
  obtain ⟨resp, rest, devicePublic, -, rfl⟩ := handshake_ok C E h.handshake
  obtain ⟨hdr, haccepted, hcode⟩ := h.header
  have hdownload := h.download
  rw [recorderDownloadFile, recorderDownloadFile_key C profile rfl] at hdownload
  obtain ⟨values, bytes, hreceived, hwritten, hdisk, hreplay⟩ :=
    downloadFile_replay C haccepted hcode hdownload
  refine ⟨bytes, hdisk, ?_⟩
  -- Of the transcript the listener needs all that was received, and of what
  -- was written the request.
  have htranscript : w₂.received = resp :: values := by
    rw [hreceived]
    simp [World.afterHandshake, World.afterExchange, h.received]
  have hrequest : w₂.written.getD 1 [] = fileHeaderRequest fileId 0 := by
    rw [hwritten]
    simp [World.afterHandshake, World.afterExchange, h.written]
  obtain ⟨v, hrun, hfile⟩ := hreplay (.connected (values.map .notification))
    h.log.symm rfl
  simp only [eavesdrop, htranscript, hrequest, fileHeaderRequest_fileId, hrun]
  exact hfile

/-! ## A concrete exchange -/

/-- A device's answer to the key exchange. -/
def handshakeAnswer (devicePublic : List UInt8)
    (sharedSecret : Vector UInt8 32) : List UInt8 :=
  message 1 cmdTypeEncrypt cmdEncryptKeyExchange
    (devicePublic ++ sharedSecret.toList)

theorem handshakeAnswer_fields {devicePublic : List UInt8}
    (hlen : devicePublic.length = 65) (sharedSecret : Vector UInt8 32) :
    106 ≤ (handshakeAnswer devicePublic sharedSecret).length ∧
      ((handshakeAnswer devicePublic sharedSecret).drop 9).take 65 =
        devicePublic ∧
      ((handshakeAnswer devicePublic sharedSecret).drop 74).take 32 =
        sharedSecret.toList := by
  refine ⟨by simp [handshakeAnswer, hlen], ?_, ?_⟩
  · rw [handshakeAnswer, drop_message, List.take_left' hlen]
  · apply field_of_append
      (message 1 cmdTypeEncrypt cmdEncryptKeyExchange devicePublic) _ []
    · simp [handshakeAnswer, message]
    · simp [hlen]
    · simp

/-- The header that answers a download of file 1 after the exchange. -/
def exchangeHeader : List UInt8 :=
  headerMessage sampleCiphers zeroSessionKey 1 160 zeroKey zeroNonce zeroNonce 0

/-- What arrives for the key exchange and a recording of one frame. -/
def exchangeWorld : World :=
  .connected (.notification (handshakeAnswer zeroPoint zeroKey) ::
    .notification exchangeHeader ::
    sliceTransfer [[zeroSlice sampleCiphers 0 0]])

theorem recordsOver_exchangeWorld : ∃ w₁ w₂,
    RecordsOver sampleCiphers sampleEcdh .release () .fine .fine 1 []
      (opusPath [] 1) exchangeWorld w₁ w₂ := by
  obtain ⟨hlen, hpoint, hshared⟩ :=
    handshakeAnswer_fields (show zeroPoint.length = 65 from rfl) zeroKey
  have hkey : deriveSessionKey sampleCiphers zeroKey.toList =
      zeroSessionKey := by
    simp [deriveSessionKey, sampleCiphers]
  have haccepts : sampleEcdh.fromSec1Bytes
      (((handshakeAnswer zeroPoint zeroKey).drop 9).take 65) = .ok () := by
    rw [hpoint]
    rfl
  have hverified : VerifiedExchange sampleEcdh .fine () exchangeWorld
      (handshakeAnswer zeroPoint zeroKey) (.notification exchangeHeader ::
        sliceTransfer [[zeroSlice sampleCiphers 0 0]]) () :=
    ⟨rfl, rfl, hlen, haccepts, by rw [hshared]; rfl⟩
  have hhandshake := handshake_verified sampleCiphers sampleEcdh hverified
  simp only [World.afterHandshake, hshared, hkey] at hhandshake
  let w₁ : World := { exchangeWorld.afterExchange
      (ecdhPubkeyCommand generatorPoint) (handshakeAnswer zeroPoint zeroKey)
      (.notification exchangeHeader ::
        sliceTransfer [[zeroSlice sampleCiphers 0 0]]) with
    sessionKey := some zeroSessionKey }
  have hbegins : Begins sampleCiphers .fine zeroSessionKey w₁
      exchangeHeader (sliceTransfer [[zeroSlice sampleCiphers 0 0]]) zeroKey :=
    (isHonestHeader_headerMessage sampleCiphers _ _ _ _ _ _).begins rfl rfl
  obtain ⟨bytes, w₂, -, hrun, -⟩ := downloadFile_delivers sampleCiphers
    .release 1 [] hbegins
    (sliceTransfer_delivers _).2 (Or.inl rfl)
  refine ⟨w₁, w₂, rfl, rfl, rfl, hhandshake, ?_, ?_⟩
  · rw [recorderDownloadFile, recorderDownloadFile_key sampleCiphers .release rfl]
    exact hrun
  · exact ⟨_, acceptedHeader_of_arrives hbegins.toHeaderArrives, hbegins.code⟩

/-! ## The leak -/

/-- **Whoever hears the bytes on the air computes the recording**, for every
Diffie-Hellman function and every secret. -/
theorem eavesdrop_recovers {E : Ecdh} {profile : Profile}
    {secret : E.Secret} {env₁ env₂ : Env} {fileId : UInt32}
    {outputDir path : Path} {w w₁ w₂ : World}
    (h : RecordsOver C E profile secret env₁ env₂ fileId outputDir path w w₁
      w₂) :
    ∃ bytes, w₂.disk path = some bytes ∧
      eavesdrop C w₂.written w₂.received = some bytes :=
  h.eavesdrop_eq

theorem eavesdrop_recovers_exchange : ∃ w₁ w₂,
    RecordsOver sampleCiphers sampleEcdh .release () .fine .fine 1 []
      (opusPath [] 1) exchangeWorld w₁ w₂ ∧
    ∃ bytes, w₂.disk (opusPath [] 1) = some bytes ∧
      eavesdrop sampleCiphers w₂.written w₂.received = some bytes := by
  obtain ⟨w₁, w₂, h⟩ := recordsOver_exchangeWorld
  exact ⟨w₁, w₂, h, eavesdrop_recovers sampleCiphers h⟩

/-- No function of the transcript computes every recording. -/
def RecordingsSecret : Prop :=
  ¬ ∃ F : List (List UInt8) → List (List UInt8) → List UInt8,
    ∀ (E : Ecdh) (profile : Profile) (secret : E.Secret) (env₁ env₂ : Env)
      (fileId : UInt32) (outputDir path : Path) (w w₁ w₂ : World),
    RecordsOver C E profile secret env₁ env₂ fileId outputDir path w w₁ w₂ →
    w₂.disk path = some (F w₂.written w₂.received)

/-- **The recordings are not secret**, whatever HKDF and AES are. -/
theorem recordings_exposed : ¬ ∃ C : Ciphers, RecordingsSecret C := by
  rintro ⟨C, hsecret⟩
  refine hsecret ⟨fun written received =>
    (eavesdrop C written received).getD [], ?_⟩
  intro E profile secret env₁ env₂ fileId outputDir path w w₁ w₂ h
  obtain ⟨bytes, hdisk, heavesdrop⟩ := h.eavesdrop_eq
  simp only [hdisk, heavesdrop, Option.getD_some]

end MicRs
