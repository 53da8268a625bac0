import MicRs.Ogg.Writer

/-!
# What the checksum of a page detects

A page carries the checksum of itself with the checksum zeroed
(`oggPage_checksum`). When it is damaged outside the checksum, but only within
32 consecutive bits, the checksum is no longer the right one
(`oggPage_burst_detected`): its polynomial has a constant term.
-/

namespace MicRs

open Endian Ogg

/-! ## Checking a page -/

/-- A page with its checksum zeroed, as it is when the checksum is computed. -/
def zeroChecksum (page : List UInt8) : List UInt8 :=
  page.take 22 ++ [0, 0, 0, 0] ++ page.drop 26

/-- The checksum a page carries. -/
def storedChecksum (page : List UInt8) : UInt32 :=
  u32FromLeBytes (arrayAt 4 page 22)

section OnePage

variable (serial pageNo : UInt32) (granule : UInt64) (flags : UInt8)
  (segments : List (List UInt8))

theorem le_length_oggPage :
    26 ≤ (oggPage serial pageNo granule flags segments).length := by
  rw [oggPage_split]
  simp
  omega

/-- **The checksum of a page is right.** -/
theorem oggPage_checksum :
    oggCrc32 (zeroChecksum (oggPage serial pageNo granule flags segments)) =
      storedChecksum (oggPage serial pageNo granule flags segments) := by
  set front := (packetPage serial pageNo granule flags segments).front
    with hfront
  set back := (packetPage serial pageNo granule flags segments).back with hback
  set crc := oggCrc32 (oggPageBlank serial pageNo granule flags segments)
    with hcrc
  have hsplit : oggPage serial pageNo granule flags segments =
      front ++ u32ToLeBytes crc ++ back :=
    oggPage_split serial pageNo granule flags segments
  have hlen : front.length = 22 := Page.length_front _
  have hzeroed : zeroChecksum (oggPage serial pageNo granule flags segments) =
      oggPageBlank serial pageNo granule flags segments := by
    have hcut : (front ++ u32ToLeBytes crc ++ back).take 22 = front := by
      rw [List.append_assoc, List.take_left' hlen]
    have hrest : (front ++ u32ToLeBytes crc ++ back).drop 26 = back :=
      List.drop_left' (by simp [hlen])
    rw [zeroChecksum, hsplit, hcut, hrest, oggPageBlank_eq]
  have hstored : (arrayAt 4 (oggPage serial pageNo granule flags segments)
      22).toList = u32ToLeBytes crc := by
    rw [toList_arrayAt (le_length_oggPage serial pageNo granule flags segments)]
    exact field_of_append front (u32ToLeBytes crc) back
      (by rw [hsplit, List.append_assoc]) hlen (length_u32ToLeBytes crc)
  rw [storedChecksum, u32FromLeBytes_toLeBytes hstored, hzeroed]

end OnePage

/-! ## Bytes and bits -/

theorem eq_of_byteAt_eq {xs ys : List UInt8} (hlen : xs.length = ys.length)
    (h : ∀ i, byteAt xs i = byteAt ys i) : xs = ys := by
  apply List.ext_getElem hlen
  intro i hi hi'
  have hbyte := h i
  rwa [byteAt, byteAt, List.getD_eq_getElem _ _ hi,
    List.getD_eq_getElem _ _ hi'] at hbyte

theorem length_zeroChecksum {page : List UInt8} (h : 26 ≤ page.length) :
    (zeroChecksum page).length = page.length := by
  simp [zeroChecksum]
  omega

theorem byteAt_zeroChecksum {page : List UInt8} (h : 26 ≤ page.length)
    (i : ℕ) : byteAt (zeroChecksum page) i =
      if 22 ≤ i ∧ i < 26 then 0 else byteAt page i := by
  have htake : (page.take 22).length = 22 := by
    rw [List.length_take]
    omega
  simp only [byteAt, zeroChecksum, List.getD_eq_getElem?_getD]
  by_cases hfront : i < 22
  · rw [List.append_assoc, List.getElem?_append_left (by omega),
      List.getElem?_take_of_lt hfront, if_neg (by omega)]
  · by_cases hchecksum : i < 26
    · rw [if_pos ⟨by omega, hchecksum⟩, List.append_assoc,
        List.getElem?_append_right (by omega), htake,
        List.getElem?_append_left (by simp; omega)]
      rcases i - 22 with _ | _ | _ | _ | k <;> rfl
    · rw [if_neg (by omega), List.getElem?_append_right (by simp; omega),
        List.getElem?_drop, List.length_append, htake]
      congr 2
      simp
      omega

/-! ## Bursts -/

/-- A page damaged within 32 consecutive bits, but not in its checksum. -/
structure BurstError (page other : List UInt8) : Prop where
  length : other.length = page.length
  differs : other ≠ page
  checksum : ∀ i, 22 ≤ i → i < 26 → byteAt other i = byteAt page i
  window : ∃ k, ∀ i, i < k ∨ k + 32 ≤ i → byteBit other i = byteBit page i

theorem BurstError.storedChecksum {page other : List UInt8}
    (h : BurstError page other) :
    storedChecksum other = storedChecksum page := by
  have hfield : arrayAt 4 other 22 = arrayAt 4 page 22 := by
    unfold arrayAt
    congr 1
    funext i
    exact h.checksum (22 + i) (by omega) (by omega)
  rw [MicRs.storedChecksum, hfield, MicRs.storedChecksum]

/-- Zeroing the checksum leaves a burst what it is. -/
theorem BurstError.zeroed {page other : List UInt8} (h : BurstError page other)
    (hpage : 26 ≤ page.length) :
    BurstError (zeroChecksum page) (zeroChecksum other) := by
  have hother : 26 ≤ other.length := h.length ▸ hpage
  constructor
  case length =>
    rw [length_zeroChecksum hpage, length_zeroChecksum hother, h.length]
  case differs =>
    intro heq
    apply h.differs
    apply eq_of_byteAt_eq h.length
    intro i
    by_cases hi : 22 ≤ i ∧ i < 26
    · exact h.checksum i hi.1 hi.2
    · have hbyte := congrArg (byteAt · i) heq
      simpa only [byteAt_zeroChecksum hpage, byteAt_zeroChecksum hother,
        if_neg hi] using hbyte
  case checksum =>
    intro i hlow hhigh
    rw [byteAt_zeroChecksum hpage, byteAt_zeroChecksum hother,
      if_pos ⟨hlow, hhigh⟩, if_pos ⟨hlow, hhigh⟩]
  case window =>
    obtain ⟨k, hk⟩ := h.window
    refine ⟨k, fun i hi => ?_⟩
    have hbit := hk i hi
    simp only [byteBit, byteAt_zeroChecksum hpage,
      byteAt_zeroChecksum hother] at hbit ⊢
    by_cases hin : 22 ≤ i / 8 ∧ i / 8 < 26
    · rw [if_pos hin, if_pos hin]
    · rw [if_neg hin, if_neg hin, hbit]

/-- **A burst changes the checksum.** -/
theorem BurstError.oggCrc32_ne {page other : List UInt8}
    (h : BurstError page other) : oggCrc32 other ≠ oggCrc32 page := by
  intro heq
  obtain ⟨k, hk⟩ := h.window
  have hagree : Crc.AgreeOutside 32 k (other.map UInt8.toBitVec)
      (page.map UInt8.toBitVec) := by
    intro i hi
    rw [messageBit_bytes, messageBit_bytes, hk i hi]
  have hne : other.map UInt8.toBitVec ≠ page.map UInt8.toBitVec := by
    intro hmap
    exact h.differs (List.map_injective_iff.mpr
      (fun _ _ => UInt8.toBitVec_inj.mp) hmap)
  have hlen : (other.map UInt8.toBitVec).length =
      (page.map UInt8.toBitVec).length := by
    rw [List.length_map, List.length_map, h.length]
  have hconst : oggGenerator.getLsbD 0 = true := by decide
  apply Crc.crc_ne_of_burst (by decide) hconst hlen hne hagree
  rw [← toBitVec_oggCrc32, ← toBitVec_oggCrc32, heq]

/-- **A page damaged by a short burst is noticed**: the checksum computed again
is not the one it carries. -/
theorem oggPage_burst_detected (serial pageNo : UInt32) (granule : UInt64)
    (flags : UInt8) (segments : List (List UInt8)) {other : List UInt8}
    (h : BurstError (oggPage serial pageNo granule flags segments) other) :
    oggCrc32 (zeroChecksum other) ≠ storedChecksum other := by
  have hlen := le_length_oggPage serial pageNo granule flags segments
  rw [h.storedChecksum, ← oggPage_checksum]
  exact (h.zeroed hlen).oggCrc32_ne

/-- The page of the head without its flag is noticed. -/
theorem oggPage_burst_detected_flag :
    oggCrc32 (zeroChecksum ((oggPage 1 0 0 oggBos [opusHead]).set 5 0)) ≠
      storedChecksum ((oggPage 1 0 0 oggBos [opusHead]).set 5 0) := by
  have hsame : ∀ i ≠ 5, byteAt ((oggPage 1 0 0 oggBos [opusHead]).set 5 0) i =
      byteAt (oggPage 1 0 0 oggBos [opusHead]) i := by
    intro i hi
    simp only [byteAt, List.getD_eq_getElem?_getD,
      List.getElem?_set_ne (Ne.symm hi)]
  apply oggPage_burst_detected 1 0 0 oggBos [opusHead]
  constructor
  case length => rw [List.length_set]
  case differs =>
    intro heq
    have hflag := congrArg (byteAt · 5) heq
    exact absurd hflag (by decide)
  case checksum => exact fun i hi _ => hsame i (by omega)
  case window =>
    refine ⟨40, fun i hi => ?_⟩
    rw [byteBit, byteBit, hsame (i / 8) (by omega)]

end MicRs
