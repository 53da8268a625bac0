import MicRs.Device.Honest
import MicRs.Session.KeyExchange
import MicRs.Transfer.Reports

/-!
# Operations and the answers of a device

What an operation does when the answers of the device are all that is in its
channel: it takes all of them and leaves the channel empty. A handshake agrees
on the key (`handshake_answered`), a listing returns the recordings or panics
(`listFiles_answered`, `listFiles_overflows`), a download saves the recording
that was asked for or reports that there is none (`downloadFile_answered`,
`downloadFile_missing`), and a deletion says whether there was something to delete.
-/

namespace MicRs

open MessageLoop

variable (C : Ciphers) {E : Ecdh} (profile : Profile)

/-! ## Key exchange -/

/-- What a key exchange relies on: public keys are encoded in 65 bytes, are
valid, and both ends compute the same secret. -/
structure Ecdh.Lawful (E : Ecdh) : Prop where
  length : ∀ s, (E.publicKeyBytes s).length = 65
  valid : ∀ s, ∃ p, E.fromSec1Bytes (E.publicKeyBytes s) = .ok p
  agree : ∀ s t p q, E.fromSec1Bytes (E.publicKeyBytes s) = .ok p →
    E.fromSec1Bytes (E.publicKeyBytes t) = .ok q →
    E.diffieHellman s q = E.diffieHellman t p

/-- The session key that two ends agree on. -/
def sharedKey (s : E.Secret) (q : E.PublicKey) : Vector UInt8 32 :=
  deriveSessionKey C (E.diffieHellman s q).toList

/-- The answer to a handshake: the device has the key. -/
theorem Device.answer_handshake (hE : E.Lawful) (d : Device E)
    (secret : E.Secret) : ∃ p q,
    E.fromSec1Bytes (E.publicKeyBytes secret) = .ok p ∧
    E.fromSec1Bytes (E.publicKeyBytes d.secret) = .ok q ∧
    d.receiveAll C [ecdhPubkeyCommand (E.publicKeyBytes secret)] =
      ({ d with sessionKey := some (sharedKey C secret q) },
        [handshakeAnswer (E.publicKeyBytes d.secret)
          (E.diffieHellman secret q)]) := by
  obtain ⟨p, hp⟩ := hE.valid secret
  obtain ⟨q, hq⟩ := hE.valid d.secret
  have hagree := hE.agree secret d.secret p q hp hq
  have hlen := hE.length secret
  have hbytes : (arrayAt 65 (E.publicKeyBytes secret) 0).toList =
      E.publicKeyBytes secret := by
    rw [toList_arrayAt hlen.ge, List.drop_zero, List.take_of_length_le hlen.le]
  have hpacket : ecdhPubkeyCommand (E.publicKeyBytes secret) =
      (SentCommand.ecdhPubkey
        (arrayAt 65 (E.publicKeyBytes secret) 0)).packet := by
    rw [SentCommand.packet, hbytes]
  refine ⟨p, q, hp, hq, ?_⟩
  rw [hpacket, Device.receiveAll_packet]
  simp only [Device.answer, hbytes, hp, sharedKey, hagree]

/-- **A handshake with the device succeeds** and leaves the channel empty. -/
theorem handshake_answered (hE : E.Lawful) {env : Env} (secret : E.Secret)
    {deviceSecret : E.Secret} {q : E.PublicKey} {w : World}
    (hq : E.fromSec1Bytes (E.publicKeyBytes deviceSecret) = .ok q)
    (hwrite : env.write = none)
    (hrx : w.rx = [.notification (handshakeAnswer
      (E.publicKeyBytes deviceSecret) (E.diffieHellman secret q))]) :
    ∃ w', (handshake C E env secret).run w = .ok () w' ∧ w'.rx = [] ∧
      w'.disk = w.disk ∧ w'.sessionKey = some (sharedKey C secret q) := by
  obtain ⟨hlen, hpoint, hshared⟩ := handshakeAnswer_fields
    (hE.length deviceSecret) (E.diffieHellman secret q)
  have hverified : VerifiedExchange E env secret w _ [] q :=
    ⟨hwrite, hrx, hlen, by rw [hpoint, hq], hshared.symm⟩
  refine ⟨_, handshake_verified C E hverified, rfl, rfl, ?_⟩
  simp only [World.afterHandshake, hshared, sharedKey]

/-! ## Listing -/

theorem isResponse_listMessage (d : Device E) :
    IsResponse cmdTypeFile cmdGetAllFiles d.listMessage := by
  refine ⟨?_, ?_, ?_⟩
  · rw [Device.listMessage, length_fileListMessage (by simp)]
    omega
  · rfl
  · rfl

theorem entriesOf_listMessage (d : Device E) :
    entriesOf d.listMessage = d.recordings.map Recording.entry :=
  entriesOf_fileListMessage (by simp) (by simpa using d.countable) []

/-- What a listing of the device returns. -/
def Recording.info (r : Recording) : FileInfo := r.entry.info

theorem fits_listMessage_iff (d : Device E) :
    (∀ entry ∈ entriesOf d.listMessage, entry.Fits) ↔
      ∀ r ∈ d.recordings, r.Listable := by
  rw [entriesOf_listMessage, List.forall_mem_map]
  exact forall₂_congr fun r _ => r.fits_entry_iff

/-- **A listing returns the recordings of the device**, where their sizes fit or
nobody checks. -/
theorem listFiles_answered {env : Env} (d : Device E) {w : World}
    (hwrite : env.write = none) (hrx : w.rx = [.notification d.listMessage])
    (hlistable : profile = .release ∨ ∀ r ∈ d.recordings, r.Listable) :
    ∃ w', (listFiles profile env).run w =
        .ok (d.recordings.map Recording.info) w' ∧ w'.rx = [] ∧
      w'.disk = w.disk ∧ w'.sessionKey = w.sessionKey := by
  have hlen : 11 ≤ d.listMessage.length := by
    rw [Device.listMessage, length_fileListMessage (by simp)]
    omega
  have hparse := parseFileList_eq profile
    (hlistable.imp_right (fits_listMessage_iff d).mpr)
  rw [if_neg (Nat.not_lt.mpr hlen), entriesOf_listMessage, List.map_map] at hparse
  exact ⟨_, listFiles_of_response profile hwrite hrx (isResponse_listMessage d)
    hparse, rfl, rfl, rfl⟩

/-- Where somebody checks, one recording that lasts too long is enough for the
listing to panic. -/
theorem listFiles_overflows {env : Env} (d : Device E) {w : World}
    (hwrite : env.write = none) (hrx : w.rx = [.notification d.listMessage])
    (hlong : ¬ ∀ r ∈ d.recordings, r.Listable) :
    ∃ w', (listFiles .dev env).run w = .error (.panic .overflow) w' ∧
      w'.rx = [] ∧ w'.disk = w.disk ∧ w'.sessionKey = w.sessionKey := by
  obtain ⟨hlen, htype, hid⟩ := isResponse_listMessage d
  have hwhole : ¬ d.listMessage.length < 7 := Nat.not_lt.mpr hlen
  have hparse := parseFileList_panic (mt (fits_listMessage_iff d).mp hlong)
  refine ⟨w.afterExchange (fileListRequest 0) d.listMessage [], ?_, rfl, rfl,
    rfl⟩
  rw [listFiles, EStateM.run_bind, sendAndRecv_notification _ hwrite hrx]
  simp [parseResponse_eq, hwhole, ResponseHeader.read, htype, hid, hparse]

/-! ## Deleting -/

theorem deleteFile_answered {env : Env} (fileId : UInt32) {w : World}
    (hwrite : env.write = none)
    (hrx : w.rx = [.notification (message 1 cmdTypeFile cmdDeleteFile [])]) :
    ∃ w', (deleteFile env fileId).run w = .ok () w' ∧ w'.rx = [] ∧
      w'.disk = w.disk ∧ w'.sessionKey = w.sessionKey :=
  ⟨_, deleteFile_of_success fileId hwrite hrx (by simp) rfl, rfl, rfl, rfl⟩

theorem deleteFile_refused {env : Env} (fileId : UInt32) {w : World}
    (hwrite : env.write = none)
    (hrx : w.rx = [.notification (message 0 cmdTypeFile cmdDeleteFile [])]) :
    ∃ w', (deleteFile env fileId).run w = .error (.error (.invalidResponse
        "delete_file failed: flag=0")) w' ∧ w'.rx = [] ∧
      w'.disk = w.disk ∧ w'.sessionKey = w.sessionKey := by
  refine ⟨w.afterExchange (deleteFileCommand fileId)
    (message 0 cmdTypeFile cmdDeleteFile []) [], ?_, rfl, rfl, rfl⟩
  rw [deleteFile, EStateM.run_bind, sendAndRecv_notification _ hwrite hrx]
  rfl

/-! ## Downloading -/

/-- Slice messages deliver their slices and do not end the transfer. -/
theorem delivered_sliceMessages (batches : List (List WireSlice)) :
    deliveredSlices ((batches.map sliceMessage).map .notification) =
        batches.flatten.map WireSlice.parsed ∧
      sliceClosing ((batches.map sliceMessage).map .notification) = none := by
  induction batches with
  | nil => exact ⟨rfl, rfl⟩
  | cons slices batches ih =>
      have hitems := classify_carries (carriesSlices_sliceMessage slices)
      rw [List.map_cons, List.map_cons, deliveredSlices_cons_items _ hitems,
        sliceClosing_cons_items _ hitems, ih.1, List.flatten_cons,
        List.map_append]
      exact ⟨rfl, ih.2⟩

/-- The slice loop takes slice messages and the completion, and nothing after
them. -/
theorem receiveSlices_messages (fileId : UInt32) (hdr : FileHeader)
    (fileKey : Vector UInt8 32) {batches : List (List WireSlice)}
    (rest : List Delivery) {w : World}
    (hrange : InRange (batches.flatten.map WireSlice.parsed))
    (hrx : w.rx = (batches.map sliceMessage).map .notification ++
      .notification completeMessage :: rest) :
    (recvUntil (sliceBody C profile fileId hdr fileKey) .start).run w =
      let s := acceptAll C fileId hdr fileKey (.start, w.log)
        (batches.flatten.map WireSlice.parsed)
      .ok s.1 (w.after rest s.2) := by
  obtain ⟨hslices, hopen⟩ := delivered_sliceMessages batches
  have hfit : AllFit C hdr fileKey .start
      (deliveredSlices ((batches.map sliceMessage).map .notification)) := by
    rw [allFit_delivered_iff, hslices]
    exact hrange
  have hitems := run_sliceItem C profile fileId hdr fileKey _ .start w.log
    (Or.inr hfit)
  have hrun := run_batch_close (fun f : Fault × Log => (.error f.1, f.2)) sliceFinish
    rest hopen hitems (classify_complete isResponse_completeMessage)
  rw [← recvStep_sliceBody, ← hrx, hslices] at hrun
  rw [recvUntil_run, hrun]
  rfl

/-- The log of a download once all slices of a recording have arrived. -/
def Recording.logged (r : Recording) (sessionKey : Vector UInt8 32) (log : Log) :
    Log :=
  (acceptAll C r.id (.read (r.header C sessionKey)) r.fileKey (.start, log)
    ((r.slices C).map WireSlice.parsed)).2

/-- What a recording reports while it is downloaded. -/
def Recording.reports (r : Recording) : List DownloadProgress :=
  (List.range r.frames.length).map fun i => {
    fileId := r.id
    bytesReceived := UInt32.ofNat (160 * (i + 1))
    totalBytes := UInt32.ofNat (160 * r.frames.length)
    sequence := UInt32.ofNat i }

theorem Recording.logged_reports (r : Recording) (sessionKey : Vector UInt8 32)
    (log : Log) :
    (r.logged C sessionKey log).reports = log.reports ++ r.reports := by
  have hlen : ∀ slice ∈ (r.slices C).map WireSlice.parsed,
      slice.encryptedChunk.length = 160 := by
    intro slice hslice
    obtain ⟨wire, -, rfl⟩ := List.mem_map.mp hslice
    exact wire.length_chunk
  rw [logged, acceptAll_reports C r.id _ r.fileKey 0 hlen rfl]
  congr 1
  apply List.ext_getElem (by simp [slices, reports])
  intro i hi hi'
  simp only [List.getElem_mapIdx, List.getElem_map, reports, List.getElem_range,
    progressReport, header, headerMessage_size, slices, WireSlice.parsed,
    Nat.zero_add]

/-- **A download takes the recording that the device sends**, and leaves the
channel empty: what remains is to save the frames. -/
theorem downloadFile_answered {env : Env} (d : Device E) (r : Recording)
    {sessionKey : Vector UInt8 32} (outputDir : Path) {w : World}
    (hwrite : env.write = none)
    (hrx : w.rx = (d.transfer C sessionKey r).map .notification) :
    ∃ w', (downloadFile C profile env r.id sessionKey outputDir).run w =
        (saveFile profile env r.id outputDir r.plain).run w' ∧ w'.rx = [] ∧
      w'.disk = w.disk ∧ w'.sessionKey = w.sessionKey ∧
      w'.log = r.logged C sessionKey w.log := by
  let hdr : FileHeader := .read (r.header C sessionKey)
  let rest : List Delivery :=
    ((d.batches (r.slices C)).map sliceMessage).map .notification ++
      [.notification completeMessage]
  have hheader : IsHonestHeader C sessionKey r.id r.fileKey r.nonce
      r.sessionNonce (r.header C sessionKey) :=
    isHonestHeader_headerMessage C _ _ _ _ _ _
  have hbegins : Begins C env sessionKey w (r.header C sessionKey) rest
      r.fileKey :=
    hheader.begins hwrite (by simp [hrx, Device.transfer, rest])
  have hslices : EncryptsFrames C r.fileKey hdr.nonce r.plain (r.slices C) := by
    rw [show hdr.nonce = r.nonce from hheader.read.2.1]
    exact r.encryptsFrames C
  have hrange : InRange
      ((d.batches (r.slices C)).flatten.map WireSlice.parsed) := by
    rw [d.flatten_batches]
    exact inRange_of_encryptsFrames C hslices (r.length_plain ▸ r.numbered)
  have hloop := receiveSlices_messages C profile r.id hdr r.fileKey [] hrange
    (w := w.atHeader r.id rest) rfl
  rw [d.flatten_batches] at hloop
  have hframes := acceptAll_rawFrames C r.id hdr r.fileKey
    ((r.slices C).map WireSlice.parsed) (.start, w.log)
  rw [map_frameOf_parsed C hslices] at hframes
  refine ⟨(w.atHeader r.id rest).after [] (r.logged C sessionKey w.log), ?_, rfl,
    rfl, rfl, rfl⟩
  rw [downloadFile_begins C hbegins, EStateM.run_bind, hloop]
  show (saveFile profile env r.id outputDir (acceptAll C r.id hdr r.fileKey
    (.start, w.log) ((r.slices C).map WireSlice.parsed)).1.rawFrames).run _ = _
  rw [hframes]
  rfl

/-- A download of a recording that the device does not have. -/
theorem downloadFile_missing {env : Env} (fileId : UInt32)
    (sessionKey : Vector UInt8 32) (outputDir : Path) {w : World}
    (hwrite : env.write = none)
    (hrx : w.rx = [.notification (missingHeader C sessionKey fileId)]) :
    ∃ w', (downloadFile C profile env fileId sessionKey outputDir).run w =
        .error (.error (.fileNotExists fileId)) w' ∧ w'.rx = [] ∧
      w'.disk = w.disk ∧ w'.sessionKey = w.sessionKey ∧ w'.log = w.log := by
  have harrives : HeaderArrives env w (missingHeader C sessionKey fileId) [] :=
    ⟨hwrite, by rw [hrx]; exact if_pos (isResponse_headerMessage C _ _ _ _ _ _ _),
      isFileHeader_headerMessage C _ _ _ _ _ _ _⟩
  have hcode : (FileHeader.read (missingHeader C sessionKey fileId)).code = 1 := by
    have hread : ∀ data, (FileHeader.read data).code = byteAt data 95 :=
      fun _ => rfl
    rw [hread, missingHeader, headerMessage_code]
  refine ⟨w.atHeader fileId [], ?_, rfl, rfl, rfl, rfl⟩
  rw [downloadFile_header C harrives]
  simp [acceptHeaderWith, FileHeaderCode.ofByte, hcode]

end MicRs
