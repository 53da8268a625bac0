import Mathlib.Algebra.Polynomial.FieldDivision
import Mathlib.Data.List.GetD
import Mathlib.RingTheory.PrincipalIdealDomain
import MicRs.Base.Crc

/-!
# What a cyclic redundancy check detects

Two messages have the same CRC exactly if the generator divides the difference
of their polynomials. A message followed by its own CRC is divisible, so its
CRC is zero (`crc_append_self`). And where the generator has a constant term,
it divides no `X ^ m * e` with `e` of smaller degree than itself, which is what
is left of two messages that differ within a window as wide as the register
(`crc_ne_of_burst`).
-/

namespace MicRs.Crc

open Polynomial

variable {w n : ℕ}

/-! ## The bits of a message -/

/-- Bit `i` of a message, most significant bit of each word first; beyond its
end there are zeros. -/
def messageBit (xs : List (BitVec n)) (i : ℕ) : Bool :=
  (xs.getD (i / n) 0).getMsbD (i % n)

theorem messageBit_of_ge {xs : List (BitVec n)} {i : ℕ}
    (h : n * xs.length ≤ i) : messageBit xs i = false := by
  rcases Nat.eq_zero_or_pos n with rfl | hpos
  · simp [messageBit]
  · have hword : xs.length ≤ i / n := (Nat.le_div_iff_mul_le hpos).mpr (by
      rwa [Nat.mul_comm])
    rw [messageBit, List.getD_eq_default _ _ hword]
    simp

theorem messageBit_word (xs : List (BitVec n)) {k b : ℕ} (hb : b < n) :
    messageBit xs (n * k + b) = (xs.getD k 0).getMsbD b := by
  have hdiv : (n * k + b) / n = k := by
    rw [Nat.mul_add_div (by omega), Nat.div_eq_of_lt hb, Nat.add_zero]
  rw [messageBit, hdiv, Nat.mul_add_mod, Nat.mod_eq_of_lt hb]

/-- A message is known by its length and its bits. -/
theorem eq_of_messageBit_eq {xs ys : List (BitVec n)}
    (hlen : xs.length = ys.length)
    (h : ∀ i, messageBit xs i = messageBit ys i) : xs = ys := by
  apply List.ext_getElem hlen
  intro k hk hk'
  apply BitVec.eq_of_getMsbD_eq
  intro b hb
  have hbit := h (n * k + b)
  rw [messageBit_word xs hb, messageBit_word ys hb,
    List.getD_eq_getElem _ _ hk, List.getD_eq_getElem _ _ hk'] at hbit
  exact hbit

/-! ## The polynomial of a message -/

theorem messagePoly_append (xs ys : List (BitVec n)) :
    messagePoly (xs ++ ys) =
      messagePoly xs * X ^ (n * ys.length) + messagePoly ys := by
  induction ys using List.reverseRecOn with
  | nil => simp [messagePoly]
  | append_singleton ys y ih =>
      simp only [messagePoly, ← List.append_assoc, List.foldl_append,
        List.foldl_cons, List.foldl_nil] at ih ⊢
      rw [ih, List.length_append, List.length_singleton, Nat.mul_succ, pow_add]
      ring

theorem messagePoly_singleton (x : BitVec n) :
    messagePoly [x] = bitsPoly x := by
  simp [messagePoly]

theorem coeff_messagePoly_concat (xs : List (BitVec n)) (x : BitVec n)
    (j : ℕ) : (messagePoly (xs ++ [x])).coeff j =
      if j < n then if x.getLsbD j then 1 else 0
      else (messagePoly xs).coeff (j - n) := by
  rw [messagePoly_append, messagePoly_singleton, List.length_singleton,
    Nat.mul_one, coeff_add, coeff_mul_X_pow', coeff_bitsPoly]
  by_cases hj : j < n
  · rw [if_neg (by omega), if_pos hj, zero_add]
  · rw [if_pos (by omega), if_neg hj, BitVec.getLsbD_of_ge x j (by omega)]
    simp

/-- The last bit of a message is the constant term. -/
theorem coeff_messagePoly (xs : List (BitVec n)) (j : ℕ) :
    (messagePoly xs).coeff j =
      if j < n * xs.length ∧ messageBit xs (n * xs.length - 1 - j) then 1
      else 0 := by
  induction xs using List.reverseRecOn generalizing j with
  | nil => simp [messagePoly]
  | append_singleton xs x ih =>
      rw [coeff_messagePoly_concat, List.length_append, List.length_singleton,
        Nat.mul_succ]
      by_cases hj : j < n
      · -- A bit of the last word.
        have hplace : n * xs.length + n - 1 - j =
            n * xs.length + (n - 1 - j) := by omega
        have hbit : messageBit (xs ++ [x]) (n * xs.length + (n - 1 - j)) =
            x.getLsbD j := by
          rw [messageBit_word _ (by omega), BitVec.getLsbD_eq_getMsbD]
          simp [hj]
        rw [if_pos hj, hplace, hbit]
        simp [Nat.lt_of_lt_of_le hj (Nat.le_add_left n _)]
      · have hplace : n * xs.length + n - 1 - j =
            n * xs.length - 1 - (j - n) := by omega
        rw [if_neg hj, ih, hplace]
        by_cases hin : j - n < n * xs.length
        · have hbit : messageBit (xs ++ [x]) (n * xs.length - 1 - (j - n)) =
              messageBit xs (n * xs.length - 1 - (j - n)) := by
            have hword : (n * xs.length - 1 - (j - n)) / n < xs.length :=
              Nat.div_lt_of_lt_mul (by omega)
            rw [messageBit, messageBit, List.getD_append _ _ _ _ hword]
          have hin' : j < n * xs.length + n := by omega
          rw [hbit]
          simp only [hin, hin']
        · have hout : ¬ j < n * xs.length + n := by omega
          simp [hin, hout]

theorem messagePoly_eq_sum (xs : List (BitVec n)) :
    messagePoly xs = ∑ i ∈ Finset.range (n * xs.length),
      if messageBit xs i then X ^ (n * xs.length - 1 - i) else 0 := by
  rw [← Finset.sum_range_reflect]
  ext j
  rw [coeff_messagePoly]
  -- Counted from the end, the exponent is the place again.
  have hsum : ∑ i ∈ Finset.range (n * xs.length),
      (if messageBit xs (n * xs.length - 1 - i) then
        (X : (ZMod 2)[X]) ^ (n * xs.length - 1 - (n * xs.length - 1 - i))
        else 0) =
      ∑ i ∈ Finset.range (n * xs.length),
        if messageBit xs (n * xs.length - 1 - i) then X ^ i else 0 := by
    apply Finset.sum_congr rfl
    intro i hi
    have hback : n * xs.length - 1 - (n * xs.length - 1 - i) = i := by
      have hlt := Finset.mem_range.mp hi
      omega
    rw [hback]
  rw [hsum, coeff_sum_X_pow]

theorem messageBit_eq_of_messagePoly_eq {xs ys : List (BitVec n)}
    (hlen : xs.length = ys.length) (h : messagePoly xs = messagePoly ys)
    (i : ℕ) : messageBit xs i = messageBit ys i := by
  by_cases hi : i < n * xs.length
  · have hcoeff := congrArg (fun p => p.coeff (n * xs.length - 1 - i)) h
    have hplace : n * xs.length - 1 - (n * xs.length - 1 - i) = i := by omega
    have hlt : n * xs.length - 1 - i < n * xs.length := by omega
    simp only [coeff_messagePoly, ← hlen, hplace, hlt, true_and] at hcoeff
    cases hx : messageBit xs i <;> cases hy : messageBit ys i <;>
      simp [hx, hy] at hcoeff ⊢
  · rw [messageBit_of_ge (Nat.le_of_not_lt hi),
      messageBit_of_ge (hlen ▸ Nat.le_of_not_lt hi)]

/-- Messages of one length are known by their polynomials. -/
theorem eq_of_messagePoly_eq {xs ys : List (BitVec n)}
    (hlen : xs.length = ys.length) (h : messagePoly xs = messagePoly ys) :
    xs = ys :=
  eq_of_messageBit_eq hlen (messageBit_eq_of_messagePoly_eq hlen h)

/-! ## Equal remainders -/

theorem dvd_of_crc_eq (hn : n ≤ w) {g : BitVec w} {xs ys : List (BitVec n)}
    (h : crc g xs = crc g ys) :
    generator g ∣ X ^ w * (messagePoly xs - messagePoly ys) := by
  have hxs := dvd_crc_sub hn g xs
  have hys := dvd_crc_sub hn g ys
  rw [h] at hxs
  have hsub := dvd_sub hys hxs
  convert hsub using 1
  ring

/-- **A message followed by its CRC has the CRC zero.** -/
theorem crc_append_self (hn : n ≤ w) (g : BitVec w)
    {xs check : List (BitVec n)} (hlen : n * check.length = w)
    (hcheck : messagePoly check = bitsPoly (crc g xs)) :
    crc g (xs ++ check) = 0 := by
  apply bitsPoly_injective
  rw [bitsPoly_crc hn, messagePoly_append, hlen, hcheck]
  have hdvd : generator g ∣
      messagePoly xs * X ^ w + bitsPoly (crc g xs) := by
    have hsub := dvd_crc_sub hn g xs
    have hsum : messagePoly xs * X ^ w + bitsPoly (crc g xs) =
        bitsPoly (crc g xs) - X ^ w * messagePoly xs := by
      rw [CharTwo.sub_eq_add, add_comm, mul_comm]
    rwa [hsum]
  rw [(modByMonic_eq_zero_iff_dvd (generator_monic g)).mpr (hdvd.mul_left _)]
  exact bitsPoly_zero.symm

/-! ## Bursts -/

/-- The messages agree everywhere but in the window of `m` bits from `k` on. -/
def AgreeOutside (m k : ℕ) (xs ys : List (BitVec n)) : Prop :=
  ∀ i, i < k ∨ k + m ≤ i → messageBit xs i = messageBit ys i

/-- A generator with a constant term has no factor `X`. -/
theorem isCoprime_generator_X_pow {g : BitVec w} (hg : g.getLsbD 0 = true)
    (m : ℕ) : IsCoprime (generator g) (X ^ m) := by
  have hw : w ≠ 0 := by
    rintro rfl
    simp at hg
  have hconst : (generator g).coeff 0 = 1 := by
    rw [generator, coeff_add, coeff_bitsPoly, hg, coeff_X_pow,
      if_neg (Ne.symm hw)]
    simp
  have hX : ¬ (X : (ZMod 2)[X]) ∣ generator g := by
    rw [X_dvd_iff, hconst]
    exact one_ne_zero
  have hirreducible : Irreducible (X : (ZMod 2)[X]) := irreducible_X
  exact (hirreducible.coprime_iff_not_dvd.mpr hX).symm.pow_right

/-- The difference of messages that agree outside a window is a polynomial of
the window's width, shifted. -/
theorem exists_burst {m k : ℕ} {xs ys : List (BitVec n)}
    (hlen : xs.length = ys.length) (h : AgreeOutside m k xs ys) :
    ∃ (r : ℕ) (e : (ZMod 2)[X]),
      messagePoly xs - messagePoly ys = X ^ r * e ∧ e.degree < m := by
  have hcoeff : ∀ j, j < n * xs.length - k - m ∨ n * xs.length - k ≤ j →
      (messagePoly xs - messagePoly ys).coeff j = 0 := by
    intro j hj
    rw [coeff_sub, coeff_messagePoly, coeff_messagePoly, ← hlen]
    by_cases hin : j < n * xs.length
    · rw [h (n * xs.length - 1 - j) (by omega), sub_self]
    · simp [hin]
  have hdvd : (X : (ZMod 2)[X]) ^ (n * xs.length - k - m) ∣
      messagePoly xs - messagePoly ys := by
    rw [X_pow_dvd_iff]
    exact fun j hj => hcoeff j (Or.inl hj)
  obtain ⟨e, he⟩ := hdvd
  refine ⟨_, e, he, ?_⟩
  rw [degree_lt_iff_coeff_zero]
  intro j hj
  have htop := hcoeff (j + (n * xs.length - k - m)) (Or.inr (by omega))
  rwa [he, coeff_X_pow_mul] at htop

/-- **A burst as wide as the register changes the CRC.** -/
theorem crc_ne_of_burst (hn : n ≤ w) {g : BitVec w}
    (hg : g.getLsbD 0 = true) {k : ℕ} {xs ys : List (BitVec n)}
    (hlen : xs.length = ys.length) (hne : xs ≠ ys)
    (h : AgreeOutside w k xs ys) : crc g xs ≠ crc g ys := by
  intro heq
  obtain ⟨r, e, hdiff, hdegree⟩ := exists_burst hlen h
  have hdvd := dvd_of_crc_eq hn heq
  rw [hdiff] at hdvd
  have he : generator g ∣ e :=
    (isCoprime_generator_X_pow hg r).dvd_of_dvd_mul_left
      ((isCoprime_generator_X_pow hg w).dvd_of_dvd_mul_left hdvd)
  have hzero : e = 0 := eq_zero_of_dvd_of_degree_lt he (by
    rwa [degree_generator])
  rw [hzero, mul_zero, sub_eq_zero] at hdiff
  exact hne (eq_of_messagePoly_eq hlen hdiff)

end MicRs.Crc
