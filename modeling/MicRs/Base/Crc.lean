import Mathlib.Algebra.CharP.Two
import Mathlib.Algebra.Field.ZMod
import Mathlib.Algebra.Polynomial.Div
import Mathlib.Data.BitVec
import Mathlib.Tactic.LinearCombination

/-!
# Cyclic redundancy checks

A bit vector is a polynomial over GF(2), bit `i` the coefficient of `X ^ i`.
The CRC with generator `X ^ w + g` of a sequence of words is the remainder of
the sequence, shifted up by `w` places, modulo the generator. `crc` computes it
with the shift register everybody uses, and `bitsPoly_crc` is the proof: one
shift multiplies by `X` and reduces (`bitsPoly_crcStep`).
-/

namespace MicRs.Crc

open Polynomial

variable {w n : ℕ}

/-! ## Bit vectors as polynomials -/

/-- The coefficients of a sum of powers of `X`. -/
theorem coeff_sum_X_pow (m : ℕ) (p : ℕ → Bool) (i : ℕ) :
    (∑ j ∈ Finset.range m, if p j then (X : (ZMod 2)[X]) ^ j else 0).coeff i =
      if i < m ∧ p i then 1 else 0 := by
  have hterm : ∀ j, (if p j then (X : (ZMod 2)[X]) ^ j else 0).coeff i =
      if j = i then (if p i then 1 else 0) else 0 := by
    intro j
    by_cases hji : j = i
    · subst hji
      by_cases hp : p j <;> simp [hp]
    · by_cases hp : p j <;> simp [hp, hji, coeff_X_pow, Ne.symm hji]
  rw [finsetSum_coeff, Finset.sum_congr rfl fun j _ => hterm j,
    Finset.sum_ite_eq', ite_and]
  simp only [Finset.mem_range]

/-- The polynomial over GF(2) whose coefficients are the bits of `x`. -/
noncomputable def bitsPoly (x : BitVec w) : (ZMod 2)[X] :=
  ∑ i ∈ Finset.range w, if x.getLsbD i then X ^ i else 0

theorem coeff_bitsPoly (x : BitVec w) (i : ℕ) :
    (bitsPoly x).coeff i = if x.getLsbD i then 1 else 0 := by
  rw [bitsPoly, coeff_sum_X_pow]
  by_cases hi : i < w
  · simp [hi]
  · simp [hi, BitVec.getLsbD_of_ge x i (by omega)]

theorem degree_bitsPoly_lt (x : BitVec w) : (bitsPoly x).degree < w := by
  rw [degree_lt_iff_coeff_zero]
  intro i hi
  rw [coeff_bitsPoly, BitVec.getLsbD_of_ge x i hi]
  rfl

theorem bitsPoly_injective : Function.Injective (bitsPoly (w := w)) := by
  intro x y h
  apply BitVec.eq_of_getLsbD_eq
  intro i _
  have hc := congrArg (fun p => p.coeff i) h
  simp only [coeff_bitsPoly] at hc
  by_cases hx : x.getLsbD i <;> by_cases hy : y.getLsbD i <;> simp_all

theorem bitsPoly_zero : bitsPoly (0#w) = 0 := by
  ext i
  simp [coeff_bitsPoly]

theorem bitsPoly_xor (x y : BitVec w) :
    bitsPoly (x ^^^ y) = bitsPoly x + bitsPoly y := by
  ext i
  rw [coeff_add]
  simp only [coeff_bitsPoly, BitVec.getLsbD_xor]
  by_cases hx : x.getLsbD i <;> by_cases hy : y.getLsbD i <;> simp [hx, hy]
  exact (CharTwo.add_self_eq_zero 1).symm

/-- Shifting up by one place multiplies by `X`, up to the bit lost. -/
theorem bitsPoly_shiftLeft_one (x : BitVec w) :
    bitsPoly (x <<< 1) + (if x.msb then X ^ w else 0) = X * bitsPoly x := by
  ext i
  rw [coeff_add]
  rcases i with _ | i
  · rcases w with _ | w
    · simp [BitVec.of_length_zero, coeff_bitsPoly]
    · by_cases hm : x.msb <;> simp [coeff_bitsPoly, hm]
  · rw [coeff_X_mul]
    simp only [coeff_bitsPoly, BitVec.getLsbD_shiftLeft]
    rcases Nat.lt_trichotomy (i + 1) w with hlt | heq | hgt
    · have hw : w ≠ i + 1 := by omega
      by_cases hm : x.msb <;> simp [hlt, hm, coeff_X_pow, hw.symm]
    · subst heq
      have hmsb : x.msb = x.getLsbD i := by
        rw [BitVec.msb_eq_getLsbD_last, Nat.add_sub_cancel]
      rw [hmsb]
      cases x.getLsbD i <;> simp
    · have hw : w ≠ i + 1 := by omega
      have hi : x.getLsbD i = false := BitVec.getLsbD_of_ge x i (by omega)
      have hnot : ¬ i + 1 < w := by omega
      by_cases hm : x.msb <;> simp [hnot, hi, hm, coeff_X_pow, hw.symm]

/-- A word moved to the top of a register. -/
theorem bitsPoly_setWidth_shiftLeft (hn : n ≤ w) (x : BitVec n) :
    bitsPoly (x.setWidth w <<< (w - n)) = X ^ (w - n) * bitsPoly x := by
  ext i
  rw [coeff_X_pow_mul']
  simp only [coeff_bitsPoly, BitVec.getLsbD_shiftLeft, BitVec.getLsbD_setWidth]
  by_cases hlow : w - n ≤ i
  · have hge : ¬ i < w - n := by omega
    by_cases hi : i < w
    · have hw : i - (w - n) < w := by omega
      simp [hlow, hge, hi, hw]
    · have hx : x.getLsbD (i - (w - n)) = false :=
        BitVec.getLsbD_of_ge x _ (by omega)
      simp [hlow, hi, hx]
  · have hlt : i < w - n := by omega
    simp [hlow, hlt]

/-! ## The generator and the register -/

/-- The generator polynomial `X ^ w + g`. -/
noncomputable def generator (g : BitVec w) : (ZMod 2)[X] := X ^ w + bitsPoly g

theorem generator_monic (g : BitVec w) : (generator g).Monic :=
  monic_X_pow_add (degree_bitsPoly_lt g)

theorem degree_generator (g : BitVec w) : (generator g).degree = w := by
  rw [generator, degree_add_eq_left_of_degree_lt] <;> rw [degree_X_pow]
  exact degree_bitsPoly_lt g

/-- One shift of the register. -/
def crcStep (g r : BitVec w) : BitVec w :=
  if r.msb then (r <<< 1) ^^^ g else r <<< 1

/-- One shift multiplies by `X` and subtracts the generator if a bit is
lost. -/
theorem bitsPoly_crcStep (g r : BitVec w) :
    bitsPoly (crcStep g r) =
      X * bitsPoly r + if r.msb then generator g else 0 := by
  have hshift := bitsPoly_shiftLeft_one r
  rcases hm : r.msb
  · simpa [crcStep, hm] using hshift
  · simp only [crcStep, hm, if_true] at hshift ⊢
    rw [bitsPoly_xor, ← hshift, generator]
    have hcancel : (X : (ZMod 2)[X]) ^ w + X ^ w = 0 :=
      CharTwo.add_self_eq_zero _
    linear_combination -hcancel

theorem dvd_crcStep_iterate (g : BitVec w) (k : ℕ) (r : BitVec w) :
    generator g ∣ bitsPoly ((crcStep g)^[k] r) - X ^ k * bitsPoly r := by
  induction k generalizing r with
  | zero => simp
  | succ k ih =>
      have hrest := ih (crcStep g r)
      rw [bitsPoly_crcStep] at hrest
      rw [Function.iterate_succ_apply]
      have hstep : generator g ∣ X ^ k * (if r.msb then generator g else 0) := by
        by_cases hm : r.msb <;> simp [hm]
      have hsum := dvd_add hrest hstep
      convert hsum using 1
      ring

/-! ## Sequences of words -/

/-- Absorb one word of the message, most significant bit first. -/
def crcWord (g : BitVec w) (r : BitVec w) (x : BitVec n) : BitVec w :=
  (crcStep g)^[n] (r ^^^ (x.setWidth w <<< (w - n)))

def crc (g : BitVec w) (xs : List (BitVec n)) : BitVec w :=
  xs.foldl (crcWord g) 0

/-- The polynomial of a message, most significant bit of its first word
first. -/
noncomputable def messagePoly (xs : List (BitVec n)) : (ZMod 2)[X] :=
  xs.foldl (fun p x => p * X ^ n + bitsPoly x) 0

/-- **The register holds the remainder** of the message so far, shifted up by
the width of the register. -/
theorem dvd_crc_sub (hn : n ≤ w) (g : BitVec w) (xs : List (BitVec n)) :
    generator g ∣ bitsPoly (crc g xs) - X ^ w * messagePoly xs := by
  induction xs using List.reverseRecOn with
  | nil => simp [crc, messagePoly, bitsPoly_zero]
  | append_singleton xs x ih =>
      simp only [crc, messagePoly, List.foldl_append, List.foldl_cons,
        List.foldl_nil] at ih ⊢
      have hstep := dvd_crcStep_iterate g n
        (xs.foldl (crcWord g) 0 ^^^ (x.setWidth w <<< (w - n)))
      rw [bitsPoly_xor, bitsPoly_setWidth_shiftLeft hn] at hstep
      have hsum := dvd_add hstep (Dvd.dvd.mul_left ih (X ^ n))
      have hpow : (X : (ZMod 2)[X]) ^ w = X ^ n * X ^ (w - n) := by
        rw [← pow_add, Nat.add_sub_cancel' hn]
      convert hsum using 1
      rw [crcWord, hpow]
      ring

theorem bitsPoly_crc (hn : n ≤ w) (g : BitVec w) (xs : List (BitVec n)) :
    bitsPoly (crc g xs) = (X ^ w * messagePoly xs) %ₘ generator g := by
  rw [← modByMonic_eq_of_dvd_sub (generator_monic g) (dvd_crc_sub hn g xs)]
  symm
  rw [modByMonic_eq_self_iff (generator_monic g), degree_generator]
  exact degree_bitsPoly_lt _

/-- The bit vector whose polynomial is the remainder: the CRC by its
definition. -/
noncomputable def remainder (g : BitVec w) (xs : List (BitVec n)) : BitVec w :=
  Function.invFun bitsPoly ((X ^ w * messagePoly xs) %ₘ generator g)

theorem crc_eq_remainder (hn : n ≤ w) (g : BitVec w) (xs : List (BitVec n)) :
    crc g xs = remainder g xs := by
  rw [remainder, ← bitsPoly_crc hn,
    Function.leftInverse_invFun bitsPoly_injective]

end MicRs.Crc
