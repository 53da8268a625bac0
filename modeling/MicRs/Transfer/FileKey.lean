import MicRs.Model.Crypto

/-!
# Wrapped file keys

A device wraps the key of a file in counter mode, behind a magic of 14 bytes
(`wrapFileKey`). `decrypt_file_key` undoes that and nothing else: it accepts
exactly the wrapped keys (`decryptFileKey_eq_ok_iff`). The magic ends within
the first cipher block, but counter mode goes byte by byte, so no block
boundary shows.
-/

namespace MicRs

variable (C : Ciphers) (sessionKey : Vector UInt8 32)
  (sessionNonce : Vector UInt8 16)

/-- What a device sends for the key of a file. -/
def wrapFileKey (fileKey : Vector UInt8 32) : List UInt8 :=
  aes256Ctr C sessionKey sessionNonce (fileKeyMagic ++ fileKey.toList)

/-- The key wrapped by a device is unwrapped. -/
theorem decryptFileKey_wrapped {fileKey : Vector UInt8 32}
    {encryptedKey : Vector UInt8 46}
    (h : encryptedKey.toList = wrapFileKey C sessionKey sessionNonce fileKey) :
    decryptFileKey C sessionKey encryptedKey sessionNonce = .ok fileKey := by
  have hmagic : (fileKeyMagic ++ fileKey.toList).take 14 = fileKeyMagic :=
    List.take_left' rfl
  have hkey : arrayAt 32 (fileKeyMagic ++ fileKey.toList) 14 = fileKey :=
    arrayAt_of_field (by simp [fileKeyMagic])
      (field_of_append _ _ [] (by rw [List.append_nil]) rfl (by simp))
  simp only [decryptFileKey, h, wrapFileKey, aes256Ctr_involutive, hmagic, hkey,
    ne_eq, not_true_eq_false, if_false]

/-- What is unwrapped was wrapped: behind the magic there are the 32 bytes of
the key and no more. -/
theorem wrapped_of_decryptFileKey {fileKey : Vector UInt8 32}
    {encryptedKey : Vector UInt8 46}
    (h : decryptFileKey C sessionKey encryptedKey sessionNonce = .ok fileKey) :
    encryptedKey.toList = wrapFileKey C sessionKey sessionNonce fileKey := by
  simp only [decryptFileKey] at h
  generalize hdecrypted : aes256Ctr C sessionKey sessionNonce
    encryptedKey.toList = decrypted at h
  have hlen : decrypted.length = 46 := by
    rw [← hdecrypted, length_aes256Ctr, Vector.length_toList]
  by_cases hmagic : decrypted.take 14 = fileKeyMagic
  · rw [if_neg (not_not.mpr hmagic)] at h
    have hkey : fileKey.toList = decrypted.drop 14 := by
      rw [← Except.ok.inj h, toList_arrayAt (by omega)]
      exact List.take_of_length_le (by rw [List.length_drop]; omega)
    rw [wrapFileKey, ← hmagic, hkey, List.take_append_drop, ← hdecrypted,
      aes256Ctr_involutive]
  · rw [if_pos hmagic] at h
    cases h

theorem decryptFileKey_eq_ok_iff {fileKey : Vector UInt8 32}
    {encryptedKey : Vector UInt8 46} :
    decryptFileKey C sessionKey encryptedKey sessionNonce = .ok fileKey ↔
      encryptedKey.toList = wrapFileKey C sessionKey sessionNonce fileKey :=
  ⟨wrapped_of_decryptFileKey C sessionKey sessionNonce,
    decryptFileKey_wrapped C sessionKey sessionNonce⟩

/-- **Unwrapping is the inverse of wrapping**: it gives a key exactly if that
key was wrapped, refuses what no key is wrapped as, and gives different keys
for different ciphertexts. -/
theorem decryptFileKey_inverse :
    (∀ (encryptedKey : Vector UInt8 46) (fileKey : Vector UInt8 32),
      decryptFileKey C sessionKey encryptedKey sessionNonce = .ok fileKey ↔
        encryptedKey.toList = wrapFileKey C sessionKey sessionNonce fileKey) ∧
    (∀ encryptedKey : Vector UInt8 46,
      (∃ e, decryptFileKey C sessionKey encryptedKey sessionNonce = .error e) ↔
        ¬ ∃ fileKey, encryptedKey.toList =
          wrapFileKey C sessionKey sessionNonce fileKey) ∧
    (∀ (encryptedKey encryptedKey' : Vector UInt8 46)
        (fileKey fileKey' : Vector UInt8 32),
      decryptFileKey C sessionKey encryptedKey sessionNonce = .ok fileKey →
      decryptFileKey C sessionKey encryptedKey' sessionNonce = .ok fileKey' →
      encryptedKey ≠ encryptedKey' → fileKey ≠ fileKey') := by
  refine ⟨fun _ _ => decryptFileKey_eq_ok_iff C sessionKey sessionNonce, ?_, ?_⟩
  · intro encryptedKey
    simp only [← decryptFileKey_eq_ok_iff]
    rcases decryptFileKey C sessionKey encryptedKey sessionNonce with e | fileKey
    · simp
    · simp
  · rintro encryptedKey encryptedKey' fileKey _ h h' hne rfl
    apply hne
    apply vector_toList_inj
    rw [wrapped_of_decryptFileKey C sessionKey sessionNonce h,
      wrapped_of_decryptFileKey C sessionKey sessionNonce h']

end MicRs
