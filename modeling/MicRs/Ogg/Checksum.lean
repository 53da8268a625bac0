import MicRs.Base.Burst
import MicRs.Model.OggWriter

/-!
# The page checksum

`ogg_crc32` is the CRC with the generator polynomial 0x04C11DB7 by its
definition, the remainder of a polynomial division (`oggCrc32_eq`): its inner
loop is the shift register of `Crc` on 32 bits, its outer loop absorbs the
bytes.
-/

namespace MicRs

open Endian Polynomial

/-- The generator polynomial without its leading term. -/
def oggGenerator : BitVec 32 := 0x04C11DB7#32

/-- The Ogg CRC of a byte string by its definition, as a number. -/
noncomputable def oggCrcReference (data : List UInt8) : ℕ :=
  (Crc.remainder oggGenerator (data.map UInt8.toBitVec)).toNat

theorem oggCrcReference_lt (data : List UInt8) :
    oggCrcReference data < 256 ^ 4 :=
  (Crc.remainder oggGenerator (data.map UInt8.toBitVec)).isLt

/-- The mask of the inner loop tests the top bit. -/
theorem topBit_iff (crc : UInt32) :
    crc &&& 0x80000000 ≠ 0 ↔ crc.toBitVec.msb = true := by
  rw [ne_eq, ← UInt32.toBitVec_inj, UInt32.toBitVec_and,
    BitVec.msb_eq_getLsbD_last]
  have hmask : (0x80000000 : UInt32).toBitVec = BitVec.twoPow 32 31 := rfl
  have hzero : (0 : UInt32).toBitVec = 0#32 := rfl
  rw [hmask, hzero, BitVec.and_twoPow]
  rcases crc.toBitVec.getLsbD (32 - 1) with _ | _ <;> simp

theorem toBitVec_crcShift (crc : UInt32) :
    (crcShift crc).toBitVec = Crc.crcStep oggGenerator crc.toBitVec := by
  have htop := topBit_iff crc
  rw [crcShift, Crc.crcStep]
  by_cases h : crc.toBitVec.msb = true
  · rw [if_pos (htop.mpr h), if_pos h]
    rfl
  · rw [if_neg (fun hmask => h (htop.mp hmask)), if_neg h]
    rfl

theorem toBitVec_crcByte (crc : UInt32) (b : UInt8) :
    (crcByte crc b).toBitVec =
      Crc.crcWord oggGenerator crc.toBitVec b.toBitVec := by
  have hsemi : Function.Semiconj UInt32.toBitVec crcShift
      (Crc.crcStep oggGenerator) := toBitVec_crcShift
  rw [crcByte, Crc.crcWord, hsemi.iterate_right 8]
  rfl

theorem toBitVec_oggCrc32 (data : List UInt8) :
    (oggCrc32 data).toBitVec =
      Crc.crc oggGenerator (data.map UInt8.toBitVec) := by
  have hfold : ∀ (bs : List UInt8) (crc : UInt32),
      (bs.foldl crcByte crc).toBitVec =
        (bs.map UInt8.toBitVec).foldl (Crc.crcWord oggGenerator)
          crc.toBitVec := by
    intro bs
    induction bs with
    | nil => exact fun crc => rfl
    | cons b bs ih =>
        intro crc
        rw [List.foldl_cons, List.map_cons, List.foldl_cons, ih,
          toBitVec_crcByte]
  exact hfold data 0

/-- **`ogg_crc32` is the remainder** modulo the generator polynomial. -/
theorem oggCrc32_eq (data : List UInt8) :
    (oggCrc32 data).toNat = oggCrcReference data := by
  rw [oggCrcReference, ← Crc.crc_eq_remainder (by decide), ← toBitVec_oggCrc32]
  rfl

/-! ## The remainder, written out -/

/-- Bit `i` of a byte string, most significant bit of each byte first. -/
def byteBit (data : List UInt8) (i : ℕ) : Bool :=
  (byteAt data (i / 8)).toNat.testBit (7 - i % 8)

/-- The polynomial over GF(2) whose coefficients are the bits of a byte string,
the first bit in front of the highest power. -/
noncomputable def bytesPoly (data : List UInt8) : (ZMod 2)[X] :=
  ∑ i ∈ Finset.range (8 * data.length),
    if byteBit data i then X ^ (8 * data.length - 1 - i) else 0

/-- The generator polynomial of Ogg. -/
noncomputable def oggPolynomial : (ZMod 2)[X] :=
  X ^ 32 + X ^ 26 + X ^ 23 + X ^ 22 + X ^ 16 + X ^ 12 + X ^ 11 + X ^ 10 +
    X ^ 8 + X ^ 7 + X ^ 5 + X ^ 4 + X ^ 2 + X + 1

theorem generator_oggGenerator : Crc.generator oggGenerator = oggPolynomial := by
  simp [Crc.generator, Crc.bitsPoly, oggGenerator, oggPolynomial,
    Finset.sum_range_succ]
  ring

theorem messageBit_bytes (data : List UInt8) (i : ℕ) :
    Crc.messageBit (data.map UInt8.toBitVec) i = byteBit data i := by
  have hlt : i % 8 < 8 := Nat.mod_lt i (by decide)
  have hbyte : (data.map UInt8.toBitVec).getD (i / 8) 0 =
      (byteAt data (i / 8)).toBitVec :=
    List.getD_map data 0 UInt8.toBitVec
  rw [Crc.messageBit, hbyte, BitVec.getMsbD_eq_getLsbD, byteBit,
    decide_eq_true hlt, Bool.true_and]
  rfl

theorem messagePoly_bytes (data : List UInt8) :
    Crc.messagePoly (data.map UInt8.toBitVec) = bytesPoly data := by
  simp only [Crc.messagePoly_eq_sum, List.length_map, messageBit_bytes,
    bytesPoly]

/-- The big-endian bytes of a number have its bits. -/
theorem coeff_messagePoly_beBytes (w n j : ℕ) :
    (Crc.messagePoly ((beBytes w n).map UInt8.toBitVec)).coeff j =
      if j < 8 * w ∧ n.testBit j then 1 else 0 := by
  induction w generalizing n j with
  | zero => simp [beBytes, leBytes, Crc.messagePoly]
  | succ w ih =>
      have hbytes : beBytes (w + 1) n = beBytes w (n / 256) ++ [UInt8.ofNat n] := by
        rw [beBytes, leBytes, List.reverse_cons, ← beBytes]
      rw [hbytes, List.map_append, List.map_singleton,
        Crc.coeff_messagePoly_concat, ih]
      by_cases hj : j < 8
      · have hbit : (UInt8.ofNat n).toBitVec.getLsbD j = n.testBit j := by
          show (BitVec.ofNat 8 n).getLsbD j = n.testBit j
          rw [BitVec.getLsbD_ofNat, decide_eq_true hj, Bool.true_and]
        have hin : j < 8 * (w + 1) := by omega
        simp only [hj, if_true, hbit, hin, true_and]
      · have hbit : (n / 256).testBit (j - 8) = n.testBit j := by
          rw [show 256 = 2 ^ 8 from rfl, Nat.testBit_div_two_pow,
            Nat.sub_add_cancel (Nat.le_of_not_lt hj)]
        have hin : j - 8 < 8 * w ↔ j < 8 * (w + 1) := by omega
        simp only [hj, if_false, hbit, hin]

theorem messagePoly_u32ToBeBytes (x : UInt32) :
    Crc.messagePoly ((u32ToBeBytes x).toList.map UInt8.toBitVec) =
      Crc.bitsPoly x.toBitVec := by
  ext j
  have hbytes : (u32ToBeBytes x).toList = beBytes 4 x.toNat := rfl
  rw [hbytes, coeff_messagePoly_beBytes, Crc.coeff_bitsPoly]
  by_cases hj : j < 8 * 4
  · simp only [hj, true_and]
    rfl
  · rw [BitVec.getLsbD_of_ge _ j (by omega)]
    simp [hj]

/-- **`ogg_crc32` computes the remainder of a polynomial division**, and a byte
string with its checksum behind it has the checksum zero. -/
theorem oggCrc32_remainder (data : List UInt8) :
    Crc.bitsPoly (oggCrc32 data).toBitVec =
      (X ^ 32 * bytesPoly data) %ₘ oggPolynomial ∧
    oggCrc32 (data ++ (u32ToBeBytes (oggCrc32 data)).toList) = 0 := by
  constructor
  · rw [toBitVec_oggCrc32, Crc.bitsPoly_crc (by decide), messagePoly_bytes,
      generator_oggGenerator]
  · have hcheck := messagePoly_u32ToBeBytes (oggCrc32 data)
    rw [toBitVec_oggCrc32] at hcheck
    rw [← UInt32.toBitVec_inj, toBitVec_oggCrc32, List.map_append]
    exact Crc.crc_append_self (by decide) oggGenerator (by simp) hcheck

end MicRs
