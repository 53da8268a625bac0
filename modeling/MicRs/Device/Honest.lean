import MicRs.Listing.RoundTrip
import MicRs.Protocol.Commands
import MicRs.Session.Eavesdrop
import MicRs.Transfer.Lossless

/-!
# A device that keeps to the protocol

The other end of the connection, as the crate takes it to be: a device that
reads one command at a time by the documented wire format and answers at once.
It exchanges keys with whoever asks, lists its recordings, sends them encrypted
and deletes them, and nothing of what it sends is lost on the way. A recording
has as many frames as sequence numbers are within the block counter; its
duration is any that the protocol has room for, also one whose size does not fit
a file list (`Recording.Listable`).
-/

namespace MicRs

open Framing

/-! ## Recordings -/

structure Recording where
  id : UInt32
  duration : UInt32
  fileKey : Vector UInt8 32
  nonce : Vector UInt8 16
  sessionNonce : Vector UInt8 16
  frames : List (Vector UInt8 160)
  numbered : frames.length ≤ 26843545

/-- The frames as the bytes they are. -/
def Recording.plain (r : Recording) : List (List UInt8) :=
  r.frames.map Vector.toList

def Recording.entry (r : Recording) : FileEntry := ⟨r.id, r.duration⟩

/-- Its size in a file list fits in 32 bits: it lasts not quite six days. -/
def Recording.Listable (r : Recording) : Prop := r.duration.toNat ≤ 517465939

instance (r : Recording) : Decidable r.Listable :=
  inferInstanceAs (Decidable (_ ≤ _))

theorem Recording.fits_entry_iff (r : Recording) :
    r.entry.Fits ↔ r.Listable :=
  r.entry.fits_iff

variable (C : Ciphers)

/-- The frames, numbered and encrypted. -/
def Recording.slices (r : Recording) : List WireSlice :=
  r.frames.mapIdx fun i frame => {
    sequenceNumber := UInt32.ofNat i
    flags := 0
    chunk := aes256Ctr C r.fileKey (chunkIv r.nonce (UInt32.ofNat (10 * i)))
      frame.toList
    padding := 0
    length_chunk := by simp [chunkEncryptedSize] }

/-- The header of a recording under a session key. -/
def Recording.header (r : Recording) (sessionKey : Vector UInt8 32) :
    List UInt8 :=
  headerMessage C sessionKey r.id (UInt32.ofNat (160 * r.frames.length))
    r.fileKey r.nonce r.sessionNonce 0

theorem Recording.length_plain (r : Recording) :
    r.plain.length = r.frames.length := List.length_map _

theorem Recording.encryptsFrames (r : Recording) :
    EncryptsFrames C r.fileKey r.nonce r.plain (r.slices C) := by
  rw [EncryptsFrames, Recording.slices, Recording.plain]
  apply List.ext_getElem (by simp)
  intro i hi hi'
  simp

/-! ## The device -/

variable (E : Ecdh)

structure Device where
  secret : E.Secret
  sessionKey : Option (Vector UInt8 32)
  recordings : List Recording
  /-- How it groups slices into messages. -/
  batches : List WireSlice → List (List WireSlice)
  distinct : (recordings.map Recording.id).Nodup
  countable : recordings.length ≤ 65535
  flatten_batches : ∀ slices, (batches slices).flatten = slices

variable {E}

def Device.find (d : Device E) (fileId : UInt32) : Option Recording :=
  d.recordings.find? fun r => r.id == fileId

/-- What is left on the device when a recording is deleted. -/
def Device.delete (d : Device E) (fileId : UInt32) : Device E :=
  { d with
    recordings := d.recordings.filter fun r => r.id != fileId
    distinct := d.distinct.sublist (List.filter_sublist.map _)
    countable := (List.length_filter_le _ _).trans d.countable }

/-- The recordings it has, as a 1A0E message. -/
def Device.listMessage (d : Device E) : List UInt8 :=
  fileListMessage (message 1 cmdTypeFile cmdGetAllFiles [])
    (d.recordings.map Recording.entry) []

/-- The messages that carry a recording. -/
def Device.transfer (d : Device E) (sessionKey : Vector UInt8 32)
    (r : Recording) : List (List UInt8) :=
  r.header C sessionKey ::
    ((d.batches (r.slices C)).map sliceMessage ++ [completeMessage])

/-- The header that answers for a recording it does not have. -/
def missingHeader (sessionKey : Vector UInt8 32) (fileId : UInt32) :
    List UInt8 :=
  headerMessage C sessionKey fileId 0 zeroKey zeroNonce zeroNonce 1

/-- How the device answers a command. -/
def Device.answer (d : Device E) : SentCommand → Device E × List (List UInt8)
  | .ecdhPubkey pubkey =>
      match E.fromSec1Bytes pubkey.toList with
      | .error _ => (d, [])
      | .ok clientPublic =>
          let sharedSecret := E.diffieHellman d.secret clientPublic
          ({ d with
            sessionKey := some (deriveSessionKey C sharedSecret.toList) },
            [handshakeAnswer (E.publicKeyBytes d.secret) sharedSecret])
  | .fileListRequest _ => (d, [d.listMessage])
  | .fileHeaderRequest fileId _ =>
      match d.sessionKey with
      | none => (d, [])
      | some sessionKey =>
          match d.find fileId with
          | none => (d, [missingHeader C sessionKey fileId])
          | some r => (d, d.transfer C sessionKey r)
  | .deleteFile fileId =>
      match d.find fileId with
      | none => (d, [message 0 cmdTypeFile cmdDeleteFile []])
      | some _ => (d.delete fileId, [message 1 cmdTypeFile cmdDeleteFile []])
  | .openBtTransport => (d, [])
  | .closeBtTransport => (d, [])

/-- What the device makes of the bytes of one write: it answers a command, and
nothing else. -/
def Device.receive (d : Device E) (bytes : List UInt8) :
    Device E × List (List UInt8) :=
  match readCommand bytes with
  | some (command, []) => d.answer C command
  | _ => (d, [])

/-- Several writes, one after the other. -/
def Device.receiveAll (d : Device E) :
    List (List UInt8) → Device E × List (List UInt8)
  | [] => (d, [])
  | bytes :: rest =>
      let (d₁, answers) := d.receive C bytes
      let (d₂, more) := d₁.receiveAll rest
      (d₂, answers ++ more)

@[simp] theorem Device.receiveAll_nil (d : Device E) :
    d.receiveAll C [] = (d, []) := rfl

/-- The device understands the packets of the crate. -/
theorem Device.receiveAll_packet (d : Device E) (command : SentCommand) :
    d.receiveAll C [command.packet] = d.answer C command := by
  have hread := (delimits_packet command).reads []
  rw [List.append_nil] at hread
  simp [receiveAll, receive, hread]

end MicRs
