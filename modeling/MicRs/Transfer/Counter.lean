import MicRs.Transfer.Samples

/-!
# The counter blocks of a chunk

`decrypt_chunk` feeds ten counter blocks to the cipher (`chunkBlocks`) and
combines the chunk with what the cipher makes of them (`decryptChunk_blocks`).
The product of sequence number and ten wraps at 32 bits while the increments
carry on into the nonce, so the blocks of two chunks are apart exactly if the
wrapped products are (`chunkBlocks_disjoint_iff`). As long as it does not wrap,
a run of chunks is one stream (`decryptChunk_concat`).
-/

namespace MicRs

open Endian Keystream

/-- The blocks that `decrypt_chunk` feeds to the cipher for a 160-byte chunk,
with the product wrapping. -/
def chunkBlocks (nonceBase : Vector UInt8 16) (sequenceNumber : UInt32) :
    List (Vector UInt8 16) :=
  (List.range 10).map
    (counterBlock (chunkIv nonceBase (sequenceNumber * blocksPerPacket)))

theorem mem_chunkBlocks {nonceBase : Vector UInt8 16} {sequenceNumber : UInt32}
    {block : Vector UInt8 16} :
    block ∈ chunkBlocks nonceBase sequenceNumber ↔ ∃ j < 10,
      counterBlock (chunkIv nonceBase (sequenceNumber * blocksPerPacket)) j =
        block := by
  simp [chunkBlocks]

/-- What the cipher makes of them, laid end to end. -/
def chunkKeystream (C : Ciphers) (fileKey : Vector UInt8 32)
    (nonceBase : Vector UInt8 16) (sequenceNumber : UInt32) : List UInt8 :=
  (chunkBlocks nonceBase sequenceNumber).flatMap fun block =>
    (C.aes256 fileKey block).toList

/-- **A chunk is decrypted with its ten blocks**, and with nothing else of the
cipher. -/
theorem decryptChunk_blocks (C : Ciphers) (fileKey : Vector UInt8 32)
    (nonceBase : Vector UInt8 16) (sequenceNumber : UInt32)
    {encrypted : List UInt8} (hlen : encrypted.length ≤ 160) :
    decryptChunk C .release fileKey nonceBase sequenceNumber encrypted =
      .ok (List.zipWith (· ^^^ ·) encrypted
        (chunkKeystream C fileKey nonceBase sequenceNumber)) := by
  have hblocks := applyKeystream_blocks (· ^^^ ·) (fun k => C.aes256 fileKey
    (counterBlock (chunkIv nonceBase (sequenceNumber * blocksPerPacket)) k))
    (m := 10) hlen
  rw [chunkKeystream, chunkBlocks, List.flatMap_map]
  exact congrArg Except.ok hblocks

/-! ## Blocks as numbers -/

/-- The first block as a number: nonce above, counter below. -/
theorem beNat_chunkIv (nonceBase : Vector UInt8 16) (counter : UInt32) :
    beNat (chunkIv nonceBase counter).toList =
      beNat (nonceBase.toList.take 12) * 2 ^ 32 + counter.toNat := by
  have hcounter : (u32ToBeBytes counter).toList = beBytes 4 counter.toNat := rfl
  have hlist : (chunkIv nonceBase counter).toList =
      nonceBase.toList.take 12 ++ beBytes 4 counter.toNat := rfl
  rw [hlist, beNat_append, beNat_beBytes_of_lt counter.toNat_lt,
    length_beBytes]
  norm_num

theorem counterBlock_eq_iff (iv iv' : Vector UInt8 16) (j k : ℕ) :
    counterBlock iv j = counterBlock iv' k ↔
      (beNat iv.toList + j) % 2 ^ 128 = (beNat iv'.toList + k) % 2 ^ 128 := by
  have hlt : ∀ n : ℕ, n % 2 ^ 128 < 256 ^ 16 := fun n =>
    Nat.mod_lt n (by norm_num)
  constructor
  · intro h
    exact beBytes_inj (hlt _) (hlt _) (congrArg Vector.toList h)
  · intro h
    rw [counterBlock, counterBlock]
    simp only [h]

/-- Under one nonce, blocks are told apart by counter plus position: both stay
far below the modulus. -/
theorem counterBlock_chunkIv_eq_iff (nonceBase : Vector UInt8 16)
    (c d : UInt32) {j k : ℕ} (hj : j < 10) (hk : k < 10) :
    counterBlock (chunkIv nonceBase c) j = counterBlock (chunkIv nonceBase d) k ↔
      c.toNat + j = d.toNat + k := by
  have hc := c.toNat_lt
  have hd := d.toNat_lt
  rw [counterBlock_eq_iff, beNat_chunkIv, beNat_chunkIv, Nat.add_assoc,
    Nat.add_assoc]
  constructor
  · intro h
    generalize beNat (nonceBase.toList.take 12) = top at h
    omega
  · intro h
    rw [h]

/-! ## Two chunks -/

/-- The 32-bit block counter of a chunk in a build without overflow checks. -/
def wrappedCounter (sequenceNumber : UInt32) : ℕ :=
  10 * sequenceNumber.toNat % 2 ^ 32

/-- The blocks of two chunks are apart if their counters are. -/
theorem disjoint_chunkBlocks_iff (nonceBase : Vector UInt8 16)
    (s t : UInt32) :
    List.Disjoint (chunkBlocks nonceBase s) (chunkBlocks nonceBase t) ↔
      wrappedCounter s + 10 ≤ wrappedCounter t ∨
        wrappedCounter t + 10 ≤ wrappedCounter s := by
  have hcounter : ∀ u : UInt32,
      (u * blocksPerPacket).toNat = wrappedCounter u := by
    intro u
    rw [UInt32.toNat_mul, wrappedCounter, Nat.mul_comm]
    rfl
  constructor
  · intro h
    by_contra hclose
    -- The later of the two counters is a block of both chunks.
    obtain ⟨j, k, hj, hk, hjk⟩ : ∃ j k, j < 10 ∧ k < 10 ∧
        wrappedCounter s + j = wrappedCounter t + k :=
      ⟨wrappedCounter t - wrappedCounter s, wrappedCounter s - wrappedCounter t,
        by omega, by omega, by omega⟩
    have hblock := (counterBlock_chunkIv_eq_iff nonceBase
      (s * blocksPerPacket) (t * blocksPerPacket) hj hk).mpr
      (by rw [hcounter, hcounter, hjk])
    exact h (mem_chunkBlocks.mpr ⟨j, hj, rfl⟩)
      (mem_chunkBlocks.mpr ⟨k, hk, hblock.symm⟩)
  · intro hfar block hs ht
    obtain ⟨j, hj, rfl⟩ := mem_chunkBlocks.mp hs
    obtain ⟨k, hk, hblock⟩ := mem_chunkBlocks.mp ht
    rw [counterBlock_chunkIv_eq_iff nonceBase _ _ hk hj, hcounter,
      hcounter] at hblock
    omega

/-- The lap a sequence number lies on: a new one begins with every multiple of
`2 ^ 32` that ten times the number reaches. -/
def lap (sequenceNumber : UInt32) : ℕ := 10 * sequenceNumber.toNat / 2 ^ 32

/-- **Two chunks share no block** exactly if they lie on one lap, or ten times
their distance is ten or more away from the laps between them; and the blocks
are those that `decrypt_chunk` uses. -/
theorem chunkBlocks_disjoint_iff (nonceBase : Vector UInt8 16)
    {s t : UInt32} (hst : s ≠ t) :
    (∀ (C : Ciphers) (fileKey : Vector UInt8 32) (n : UInt32)
      (encrypted : List UInt8), encrypted.length ≤ 160 →
      decryptChunk C .release fileKey nonceBase n encrypted =
        .ok (List.zipWith (· ^^^ ·) encrypted
          (chunkKeystream C fileKey nonceBase n))) ∧
    (List.Disjoint (chunkBlocks nonceBase s) (chunkBlocks nonceBase t) ↔
      lap s = lap t ∨
        10 ≤ (10 * ((s.toNat : ℤ) - t.toNat) -
          2 ^ 32 * ((lap s : ℤ) - lap t)).natAbs) := by
  refine ⟨fun C fileKey n encrypted hlen =>
    decryptChunk_blocks C fileKey nonceBase n hlen, ?_⟩
  have hne : s.toNat ≠ t.toNat := fun h => hst (UInt32.toNat_inj.mp h)
  rw [disjoint_chunkBlocks_iff]
  simp only [lap, wrappedCounter]
  omega

/-- The first two chunks lie on the first lap. -/
theorem chunkBlocks_disjoint_zero_one :
    List.Disjoint (chunkBlocks (Vector.replicate 16 0) 0)
      (chunkBlocks (Vector.replicate 16 0) 1) :=
  (chunkBlocks_disjoint_iff (Vector.replicate 16 0) (by decide)).2.mpr
    (Or.inl (by decide))

/-- Chunks 0 and `2 ^ 31` are decrypted with the same ten blocks. -/
theorem chunkBlocks_reused :
    ¬ ∀ (nonceBase : Vector UInt8 16) (s t : UInt32), s ≠ t →
      List.Disjoint (chunkBlocks nonceBase s) (chunkBlocks nonceBase t) := by
  intro h
  have hdisjoint := h (Vector.replicate 16 0) 0 0x80000000 (by decide)
  rw [disjoint_chunkBlocks_iff] at hdisjoint
  revert hdisjoint
  decide

/-! ## A run of chunks -/

/-- Chunk `i` of a run starts where ten blocks for each chunk before it lead. -/
theorem counterBlock_add (nonceBase : Vector UInt8 16) {s : UInt32} {i : ℕ}
    (h : (s.toNat + i) * 10 < 2 ^ 32) (j : ℕ) :
    counterBlock (chunkIv nonceBase ((s + UInt32.ofNat i) * 10)) j =
      counterBlock (chunkIv nonceBase (s * 10)) (j + 10 * i) := by
  have hfirst : (s * 10).toNat = s.toNat * 10 := by
    rw [UInt32.toNat_mul]
    exact Nat.mod_eq_of_lt (by show s.toNat * 10 < 2 ^ 32; omega)
  have hcounter : ((s + UInt32.ofNat i) * 10).toNat = (s.toNat + i) * 10 := by
    rw [UInt32.toNat_mul, UInt32.toNat_add, UInt32.toNat_ofNat']
    show (s.toNat + i % 2 ^ 32) % 2 ^ 32 * 10 % 2 ^ 32 = _
    omega
  rw [counterBlock_eq_iff, beNat_chunkIv, beNat_chunkIv, hfirst, hcounter]
  congr 1
  ring

section Run

variable (C : Ciphers) (fileKey : Vector UInt8 32)
  (nonceBase : Vector UInt8 16) {s : UInt32} {chunks : List (List UInt8)}

/-- The counter of every chunk fits if that behind the last one does. -/
theorem room_of_mem_zipIdx (hroom : (s.toNat + chunks.length) * 10 ≤ 2 ^ 32)
    {chunk : List UInt8} {i : ℕ} (hmem : (chunk, i) ∈ chunks.zipIdx) :
    (s.toNat + i) * 10 < 2 ^ 32 := by
  have hi := (List.mem_zipIdx hmem).2.1
  omega

/-- A run of chunks is decrypted chunk by chunk. -/
theorem mapM_decryptChunk (profile : Profile)
    (hroom : (s.toNat + chunks.length) * 10 ≤ 2 ^ 32) :
    (chunks.zipIdx.mapM fun (chunk, i) =>
      decryptChunk C profile fileKey nonceBase (s + UInt32.ofNat i) chunk) =
      .ok (chunks.zipIdx.map fun (chunk, i) => aes256Ctr C fileKey
        (chunkIv nonceBase ((s + UInt32.ofNat i) * 10)) chunk) := by
  apply mapM_of_ok
  rintro ⟨chunk, i⟩ hmem
  apply decryptChunk_of_fits
  have hfits := room_of_mem_zipIdx hroom hmem
  have hsum : (s + UInt32.ofNat i).toNat = s.toNat + i := by
    rw [UInt32.toNat_add, UInt32.toNat_ofNat']
    omega
  rw [hsum]
  exact hfits

/-- **Each chunk reads its own ten blocks of the one keystream.** -/
theorem flatten_aes256Ctr (hlen : ∀ chunk ∈ chunks, chunk.length = 160)
    (hroom : (s.toNat + chunks.length) * 10 ≤ 2 ^ 32) :
    (chunks.zipIdx.map fun (chunk, i) => aes256Ctr C fileKey
      (chunkIv nonceBase ((s + UInt32.ofNat i) * 10)) chunk).flatten =
      aes256Ctr C fileKey (chunkIv nonceBase (s * 10)) chunks.flatten := by
  have hblocks : (chunks.zipIdx.map fun (chunk, i) => aes256Ctr C fileKey
      (chunkIv nonceBase ((s + UInt32.ofNat i) * 10)) chunk) =
      chunks.mapIdx fun i chunk => applyKeystream (· ^^^ ·)
        (blockStream fun j => C.aes256 fileKey
          (counterBlock (chunkIv nonceBase (s * 10)) (j + 10 * i))) chunk := by
    rw [List.mapIdx_eq_zipIdx_map]
    apply List.map_congr_left
    rintro ⟨chunk, i⟩ hmem
    simp only [aes256Ctr, ctrKeystream,
      counterBlock_add nonceBase (room_of_mem_zipIdx hroom hmem)]
  have hstream := applyKeystream_flatten (· ^^^ ·) (fun j => C.aes256 fileKey
    (counterBlock (chunkIv nonceBase (s * 10)) j)) (m := 10) hlen
  rw [hblocks]
  exact hstream.symm

end Run

/-- **Decrypting a run of chunks one by one is decrypting them at once**: as
long as the counter stays within 32 bits, each restart finds the running
128-bit counter where it stands. -/
theorem decryptChunk_concat (C : Ciphers) (profile : Profile)
    (fileKey : Vector UInt8 32) (nonceBase : Vector UInt8 16) {s : UInt32}
    {chunks : List (List UInt8)} (hlen : ∀ chunk ∈ chunks, chunk.length = 160)
    (hroom : (s.toNat + chunks.length) * 10 ≤ 2 ^ 32) :
    (do let outputs ← chunks.zipIdx.mapM fun (chunk, i) =>
          decryptChunk C profile fileKey nonceBase (s + UInt32.ofNat i) chunk
        return outputs.flatten) =
      decryptChunk C profile fileKey nonceBase s chunks.flatten ∧
    decryptChunk C profile fileKey nonceBase s chunks.flatten =
      .ok (aes256Ctr C fileKey
        (chunkIv nonceBase (UInt32.ofNat (10 * s.toNat))) chunks.flatten) := by
  have hwhole := decryptChunk_of_fits C profile fileKey nonceBase
    chunks.flatten (show s.toNat * 10 < 2 ^ 32 by omega)
  have hcounter : UInt32.ofNat (10 * s.toNat) = s * 10 := by
    rw [Nat.mul_comm, UInt32.ofNat_mul, UInt32.ofNat_toNat]
    rfl
  constructor
  · rw [mapM_decryptChunk C fileKey nonceBase profile hroom, hwhole]
    exact congrArg Except.ok (flatten_aes256Ctr C fileKey nonceBase hlen hroom)
  · rw [hcounter]
    exact hwhole

/-- The last two chunks in front of the 32-bit boundary. -/
theorem decryptChunk_concat_boundary :
    (do let outputs ← [List.replicate 160 1, List.replicate 160 2].zipIdx.mapM
          fun (chunk, i) => decryptChunk sampleCiphers .dev zeroKey zeroNonce
            (429496727 + UInt32.ofNat i) chunk
        return outputs.flatten) =
      decryptChunk sampleCiphers .dev zeroKey zeroNonce 429496727
        [List.replicate 160 1, List.replicate 160 2].flatten ∧
    decryptChunk sampleCiphers .dev zeroKey zeroNonce 429496727
        [List.replicate 160 1, List.replicate 160 2].flatten =
      .ok (aes256Ctr sampleCiphers zeroKey
        (chunkIv zeroNonce (UInt32.ofNat (10 * (429496727 : UInt32).toNat)))
        [List.replicate 160 1, List.replicate 160 2].flatten) :=
  decryptChunk_concat sampleCiphers .dev _ _ (by simp) (by decide)

end MicRs
