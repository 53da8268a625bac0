import MicRs.Base.Keystream
import MicRs.Model.Error
import MicRs.Model.Protocol

/-!
# `crypto.rs`: key exchange, key derivation and decryption

The primitives come from other crates and are parameters: AES-256 on one block
and HKDF-SHA256 (`Ciphers`), and P-256 Diffie-Hellman (`Ecdh`). Counter mode is
the `Ctr128BE` of the `ctr` crate: block `k` of the keystream is the cipher
applied to the initialisation vector plus `k`, as a 128-bit big-endian number.
-/

namespace MicRs

open Endian Keystream

/-! ## Primitives of other crates -/

structure Ciphers where
  /-- One block of AES-256 under a key. -/
  aes256 : Vector UInt8 32 → Vector UInt8 16 → Vector UInt8 16
  /-- HKDF-SHA256 expanded to 32 bytes, from salt, input and info. -/
  hkdfSha256 : List UInt8 → List UInt8 → List UInt8 → Vector UInt8 32

structure Ecdh where
  Secret : Type
  PublicKey : Type
  /-- The SEC1 encoding of the public key of a secret. -/
  publicKeyBytes : Secret → List UInt8
  /-- Point validation, with the text of its error. -/
  fromSec1Bytes : List UInt8 → Except String PublicKey
  diffieHellman : Secret → PublicKey → Vector UInt8 32

/-! ## ECDH key exchange -/

structure EcdhKeypair (E : Ecdh) where
  secret : Option E.Secret
  publicKeyBytes : List UInt8

/-- `EcdhKeypair::generate`, for the secret the random generator yields. -/
def EcdhKeypair.generate {E : Ecdh} (secret : E.Secret) : EcdhKeypair E where
  secret := some secret
  publicKeyBytes := E.publicKeyBytes secret

def EcdhKeypair.deriveSharedSecret {E : Ecdh} (keypair : EcdhKeypair E)
    (devicePublicBytes : List UInt8) :
    Except RecorderError (Vector UInt8 32) :=
  match E.fromSec1Bytes devicePublicBytes with
  | .error e => .error (.cryptoError ("invalid device public key: " ++ e))
  | .ok devPublic =>
      match keypair.secret with
      | none => .error (.cryptoError "keypair already consumed")
      | some secret => .ok (E.diffieHellman secret devPublic)

/-! ## Session key derivation -/

variable (C : Ciphers)

def deriveSessionKey (sharedSecret : List UInt8) : Vector UInt8 32 :=
  C.hkdfSha256 hkdfSalt sharedSecret hkdfInfo

/-! ## AES-256 in counter mode -/

/-- Block `k` that counter mode feeds to the cipher: `iv + k` as a 128-bit
big-endian number. -/
def counterBlock (iv : Vector UInt8 16) (k : ℕ) : Vector UInt8 16 :=
  ⟨(beBytes 16 ((beNat iv.toList + k) % 2 ^ 128)).toArray, by simp⟩

/-- The keystream of AES-256 in counter mode. -/
def ctrKeystream (key : Vector UInt8 32) (iv : Vector UInt8 16) : ℕ → UInt8 :=
  blockStream fun k => C.aes256 key (counterBlock iv k)

/-- `Aes256Ctr::new(key, iv).apply_keystream(data)` -/
def aes256Ctr (key : Vector UInt8 32) (iv : Vector UInt8 16)
    (data : List UInt8) : List UInt8 :=
  applyKeystream (· ^^^ ·) (ctrKeystream C key iv) data

@[simp] theorem length_aes256Ctr (key : Vector UInt8 32) (iv : Vector UInt8 16)
    (data : List UInt8) : (aes256Ctr C key iv data).length = data.length :=
  length_applyKeystream _ _ _

/-- Counter mode encrypts and decrypts alike. -/
theorem aes256Ctr_involutive (key : Vector UInt8 32) (iv : Vector UInt8 16)
    (data : List UInt8) :
    aes256Ctr C key iv (aes256Ctr C key iv data) = data :=
  applyKeystream_involutive _
    (fun a k => by rw [UInt8.xor_assoc, UInt8.xor_self, UInt8.xor_zero]) _ _

/-! ## File key decryption -/

def decryptFileKey (sessionKey : Vector UInt8 32)
    (encryptedKey : Vector UInt8 46) (sessionNonce : Vector UInt8 16) :
    Except RecorderError (Vector UInt8 32) :=
  let decrypted := aes256Ctr C sessionKey sessionNonce encryptedKey.toList
  if decrypted.take 14 ≠ fileKeyMagic then
    .error (.cryptoError
      "invalid file key: missing 'soundcored3200' magic header")
  else
    .ok (arrayAt 32 decrypted 14)

/-! ## Chunk decryption -/

/-- `nonce[0..12]` followed by the big-endian counter. -/
def chunkIv (nonceBase : Vector UInt8 16) (counter : UInt32) :
    Vector UInt8 16 :=
  ⟨(nonceBase.toList.take 12 ++ (u32ToBeBytes counter).toList).toArray, by
    simp⟩

def decryptChunk (profile : Profile) (fileKey : Vector UInt8 32)
    (nonceBase : Vector UInt8 16) (sequenceNumber : UInt32)
    (encrypted : List UInt8) : Rust (List UInt8) := do
  let counter ← mulU32 profile sequenceNumber blocksPerPacket
  return aes256Ctr C fileKey (chunkIv nonceBase counter) encrypted

/-- A chunk whose block counter fits in 32 bits decrypts in every build. -/
theorem decryptChunk_of_fits (profile : Profile) (fileKey : Vector UInt8 32)
    (nonceBase : Vector UInt8 16) {sequenceNumber : UInt32}
    (encrypted : List UInt8) (h : sequenceNumber.toNat * 10 < 2 ^ 32) :
    decryptChunk C profile fileKey nonceBase sequenceNumber encrypted =
      .ok (aes256Ctr C fileKey (chunkIv nonceBase (sequenceNumber * 10))
        encrypted) := by
  have hmul : mulU32 profile sequenceNumber blocksPerPacket =
      .ok (sequenceNumber * blocksPerPacket) := arith_of_fits profile _ h
  rw [decryptChunk, hmul]
  rfl

end MicRs
