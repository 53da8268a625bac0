import MicRs.Transfer.Wire

/-!
# Concrete runs

Keys, messages and primitives for runs on concrete inputs: everything secret is
zero, and the primitives are AES-256 and HKDF-SHA256 where those runs meet
them.
-/

namespace MicRs

def zeroKey : Vector UInt8 32 := Vector.replicate 32 0

def zeroNonce : Vector UInt8 16 := Vector.replicate 16 0

/-- A slice whose chunk is one byte repeated. -/
def WireSlice.uniform (sequenceNumber : UInt32) (b : UInt8) : WireSlice where
  sequenceNumber
  flags := 0
  chunk := List.replicate chunkEncryptedSize b
  padding := 0
  length_chunk := List.length_replicate

variable (C : Ciphers)

/-- A header whose keys and nonces are zero. -/
def zeroHeader (fileId : UInt32) (code : UInt8) : List UInt8 :=
  headerMessage C zeroKey fileId 160 zeroKey zeroNonce zeroNonce code

theorem isHonestHeader_zeroHeader (fileId : UInt32) :
    IsHonestHeader C zeroKey fileId zeroKey zeroNonce zeroNonce
      (zeroHeader C fileId 0) :=
  isHonestHeader_headerMessage C _ _ _ _ _ _

/-- The frame of 160 times `b`, encrypted as a slice. -/
def zeroSlice (sequenceNumber : UInt32) (b : UInt8) : WireSlice where
  sequenceNumber
  flags := 0
  chunk := aes256Ctr C zeroKey
    (chunkIv zeroNonce (sequenceNumber * blocksPerPacket))
    (List.replicate chunkEncryptedSize b)
  padding := 0
  length_chunk := by rw [length_aes256Ctr, List.length_replicate]

theorem frameOf_zeroSlice (fileId sequenceNumber : UInt32) (b : UInt8) :
    frameOf C (.read (zeroHeader C fileId 0)) zeroKey
      (zeroSlice C sequenceNumber b).parsed =
      List.replicate chunkEncryptedSize b := by
  have hnonce := (isHonestHeader_zeroHeader C fileId).read.2.1
  rw [frameOf, hnonce]
  simp only [WireSlice.parsed, zeroSlice, aes256Ctr_involutive]

/-- A 1A0A message. -/
def completeMessage : List UInt8 := message 1 cmdTypeFile cmdFileComplete []

theorem isResponse_completeMessage :
    IsResponse cmdTypeFile cmdFileComplete completeMessage :=
  isResponse_message 1 cmdTypeFile cmdFileComplete []

/-- Slice messages and the completion. -/
def sliceTransfer (batches : List (List WireSlice)) : List Delivery :=
  (batches.map sliceMessage).map .notification ++
    [.notification completeMessage]

theorem sliceTransfer_delivers (batches : List (List WireSlice)) :
    deliveredSlices (sliceTransfer batches) =
        batches.flatten.map WireSlice.parsed ∧
      sliceClosing (sliceTransfer batches) = some .complete := by
  apply deliveries_of_carries [] isResponse_completeMessage
  rw [List.forall₂_map_right_iff]
  exact List.forall₂_same.mpr fun slices _ => carriesSlices_sliceMessage slices

/-- A fresh connection over which file 1 arrives. -/
def zeroWorld (batches : List (List WireSlice)) : World :=
  .connected (.notification (zeroHeader C 1 0) :: sliceTransfer batches)

theorem zeroWorld_begins (batches : List (List WireSlice)) :
    Begins C .fine zeroKey (zeroWorld C batches) (zeroHeader C 1 0)
      (sliceTransfer batches) zeroKey :=
  (isHonestHeader_zeroHeader C 1).begins rfl rfl

/-- HKDF-SHA256 of 32 zero bytes, with the salt and info of the crate. -/
def zeroSessionKey : Vector UInt8 32 :=
  #v[0xCA, 0x75, 0xFC, 0x30, 0xBC, 0x78, 0xBB, 0xCD,
     0x5A, 0x8C, 0xE7, 0x6A, 0x71, 0x16, 0x4D, 0x83,
     0xDC, 0xD0, 0x29, 0xE5, 0x93, 0x4F, 0xBC, 0x5A,
     0x53, 0x1A, 0x24, 0x2E, 0x17, 0x4D, 0x5D, 0xF8]

/-- AES-256 under the zero key, on the first ten counter blocks. -/
def zeroKeyBlocks : List (List UInt8) := [
  [0xDC, 0x95, 0xC0, 0x78, 0xA2, 0x40, 0x89, 0x89,
   0xAD, 0x48, 0xA2, 0x14, 0x92, 0x84, 0x20, 0x87],
  [0x53, 0x0F, 0x8A, 0xFB, 0xC7, 0x45, 0x36, 0xB9,
   0xA9, 0x63, 0xB4, 0xF1, 0xC4, 0xCB, 0x73, 0x8B],
  [0xCE, 0xA7, 0x40, 0x3D, 0x4D, 0x60, 0x6B, 0x6E,
   0x07, 0x4E, 0xC5, 0xD3, 0xBA, 0xF3, 0x9D, 0x18],
  [0x72, 0x60, 0x03, 0xCA, 0x37, 0xA6, 0x2A, 0x74,
   0xD1, 0xA2, 0xF5, 0x8E, 0x75, 0x06, 0x35, 0x8E],
  [0xDD, 0x4A, 0xB1, 0x28, 0x4D, 0x4A, 0xE1, 0x7B,
   0x41, 0xE8, 0x59, 0x24, 0x47, 0x0C, 0x36, 0xF7],
  [0x47, 0x41, 0xCB, 0xE1, 0x81, 0xBB, 0x7F, 0x30,
   0x61, 0x7C, 0x1D, 0xE3, 0xAB, 0x0C, 0x3A, 0x1F],
  [0xD0, 0xC4, 0x8F, 0x73, 0x21, 0xA8, 0x2D, 0x37,
   0x60, 0x95, 0xAC, 0xE0, 0x41, 0x91, 0x67, 0xA0],
  [0xBC, 0xAF, 0x49, 0xB0, 0xC0, 0xCE, 0xA6, 0x2D,
   0xE6, 0xBC, 0x1C, 0x66, 0x54, 0x5E, 0x1D, 0xAD],
  [0xAB, 0xFA, 0x77, 0xCD, 0x6E, 0x85, 0xDA, 0x24,
   0x5F, 0xB0, 0xBD, 0xC5, 0xE5, 0x2C, 0xFC, 0x29],
  [0xBA, 0x0A, 0xE1, 0xAB, 0x28, 0x37, 0xE0, 0xF3,
   0x63, 0x87, 0xB7, 0x0E, 0x93, 0x17, 0x60, 0x12]]

/-- AES-256 under `zeroSessionKey`, on the first three counter blocks. -/
def zeroSessionKeyBlocks : List (List UInt8) := [
  [0x17, 0xF2, 0x6C, 0xB7, 0xF2, 0x77, 0x35, 0xAD,
   0x20, 0xED, 0x7B, 0x7A, 0x19, 0x0A, 0x30, 0x01],
  [0xF5, 0xE9, 0xF1, 0x30, 0x60, 0x52, 0xCD, 0x0F,
   0x8F, 0xE3, 0x6D, 0xC6, 0x0D, 0x72, 0x50, 0x77],
  [0xD2, 0x72, 0x82, 0xAD, 0xBD, 0xA4, 0x29, 0xAC,
   0xD0, 0x63, 0xB6, 0x43, 0xA5, 0x18, 0x39, 0x71]]

/-- The real primitives where the concrete runs meet them, zero elsewhere. -/
def sampleCiphers : Ciphers where
  aes256 key block :=
    let blocks := if key = zeroKey then zeroKeyBlocks
      else if key = zeroSessionKey then zeroSessionKeyBlocks else []
    arrayAt 16 (blocks.getD (Endian.beNat block.toList) []) 0
  hkdfSha256 salt input info :=
    if salt = hkdfSalt ∧ input = zeroKey.toList ∧ info = hkdfInfo then
      zeroSessionKey
    else zeroKey

/-- The point of P-256 with first coordinate zero, uncompressed. -/
def zeroPoint : List UInt8 :=
  0x04 :: (zeroKey.toList ++ [
    0x66, 0x48, 0x5C, 0x78, 0x0E, 0x2F, 0x83, 0xD7,
    0x24, 0x33, 0xBD, 0x5D, 0x84, 0xA0, 0x6B, 0xB6,
    0x54, 0x1C, 0x2A, 0xF3, 0x1D, 0xAE, 0x87, 0x17,
    0x28, 0xBF, 0x85, 0x6A, 0x17, 0x4F, 0x93, 0xF4])

/-- The generator of P-256, uncompressed. -/
def generatorPoint : List UInt8 := [
  0x04,
  0x6B, 0x17, 0xD1, 0xF2, 0xE1, 0x2C, 0x42, 0x47,
  0xF8, 0xBC, 0xE6, 0xE5, 0x63, 0xA4, 0x40, 0xF2,
  0x77, 0x03, 0x7D, 0x81, 0x2D, 0xEB, 0x33, 0xA0,
  0xF4, 0xA1, 0x39, 0x45, 0xD8, 0x98, 0xC2, 0x96,
  0x4F, 0xE3, 0x42, 0xE2, 0xFE, 0x1A, 0x7F, 0x9B,
  0x8E, 0xE7, 0xEB, 0x4A, 0x7C, 0x0F, 0x9E, 0x16,
  0x2B, 0xCE, 0x33, 0x57, 0x6B, 0x31, 0x5E, 0xCE,
  0xCB, 0xB6, 0x40, 0x68, 0x37, 0xBF, 0x51, 0xF5]

/-- P-256 for the secret 1 and the device's point `zeroPoint`: the shared
secret is the first coordinate of that point. -/
def sampleEcdh : Ecdh where
  Secret := Unit
  PublicKey := Unit
  publicKeyBytes _ := generatorPoint
  fromSec1Bytes bytes :=
    if bytes = zeroPoint then .ok () else .error "crypto error"
  diffieHellman _ _ := zeroKey

end MicRs
