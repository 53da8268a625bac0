import MicRs.Model.Mike

/-!
# The hex parser of `mike`

`parse_hex` takes its text two bytes at a time. Where these are two one-byte
characters they are read as a number with an optional sign, so a `+` stands for
the digit 0 in front (`AcceptedPair`); where they are not whole characters the
slice panics (`CutsClean`). `parseHex_eq` is the result for every text. From it
follow for which texts the parser is exact (`parseHex_exact_iff`) and for which
it returns (`parseHex_returns_iff`).
-/

namespace MicRs

open String (utf8Len)

/-! ## The grammar of hex -/

def IsHexDigit (c : Char) : Prop :=
  ('0' ≤ c ∧ c ≤ '9') ∨ ('a' ≤ c ∧ c ≤ 'f') ∨ ('A' ≤ c ∧ c ≤ 'F')

instance (c : Char) : Decidable (IsHexDigit c) :=
  inferInstanceAs (Decidable (_ ∨ _ ∨ _))

/-- The value of a digit, and 0 for every other character. -/
def digitValue (c : Char) : ℕ :=
  if '0' ≤ c ∧ c ≤ '9' then c.toNat - '0'.toNat
  else if 'a' ≤ c ∧ c ≤ 'f' then c.toNat - 'a'.toNat + 10
  else if 'A' ≤ c ∧ c ≤ 'F' then c.toNat - 'A'.toNat + 10
  else 0

/-- The value of two digits. -/
def pairValue (hi lo : Char) : UInt8 :=
  UInt8.ofNat (16 * digitValue hi + digitValue lo)

/-- The values of consecutive pairs. -/
def pairValues : List Char → List UInt8
  | hi :: lo :: cs => pairValue hi lo :: pairValues cs
  | _ => []

/-- The text is hex, and `bytes` are what it says. -/
structure IsHexOf (bytes : List UInt8) (cs : List Char) : Prop where
  even : cs.length % 2 = 0
  digits : ∀ c ∈ cs, IsHexDigit c
  values : bytes = pairValues cs

/-! ## Digits -/

theorem char_le_iff {c d : Char} : c ≤ d ↔ c.toNat ≤ d.toNat :=
  UInt32.le_iff_toNat_le

/-- The digits by their code points. -/
theorem isHexDigit_iff {c : Char} : IsHexDigit c ↔
    (48 ≤ c.toNat ∧ c.toNat ≤ 57) ∨ (97 ≤ c.toNat ∧ c.toNat ≤ 102) ∨
      (65 ≤ c.toNat ∧ c.toNat ≤ 70) := by
  simp only [IsHexDigit, char_le_iff]
  rfl

theorem digitValue_eq (c : Char) : digitValue c =
    if 48 ≤ c.toNat ∧ c.toNat ≤ 57 then c.toNat - 48
    else if 97 ≤ c.toNat ∧ c.toNat ≤ 102 then c.toNat - 97 + 10
    else if 65 ≤ c.toNat ∧ c.toNat ≤ 70 then c.toNat - 65 + 10
    else 0 := by
  simp only [digitValue, char_le_iff]
  rfl

theorem digitValue_lt (c : Char) : digitValue c < 16 := by
  rw [digitValue_eq]
  split_ifs <;> omega

theorem utf8Size_of_isHexDigit {c : Char} (h : IsHexDigit c) :
    c.utf8Size = 1 := by
  rw [isHexDigit_iff] at h
  have hascii : c.toNat ≤ 127 := by omega
  exact Char.utf8Size_eq_one_iff.mpr (UInt32.le_iff_toNat_le.mpr hascii)

/-- **The digits of radix 16.** -/
theorem toDigit_sixteen (c : Char) :
    toDigit c 16 = if IsHexDigit c then some (digitValue c) else none := by
  have h0 : ('0' : Char).toNat = 48 := rfl
  have h9 : ('9' : Char).toNat = 57 := rfl
  have ha : ('a' : Char).toNat = 97 := rfl
  have hz : ('z' : Char).toNat = 122 := rfl
  have hA : ('A' : Char).toNat = 65 := rfl
  have hZ : ('Z' : Char).toNat = 90 := rfl
  simp only [toDigit, digitValue_eq, isHexDigit_iff, char_le_iff, h0, h9, ha, hz,
    hA, hZ]
  split_ifs <;> simp [Option.filter] <;> omega

theorem parseDigits_cons {result : ℕ} (c : Char) (cs : List Char)
    (h : result < 16) :
    parseDigits 16 result (c :: cs) =
      if IsHexDigit c then parseDigits 16 (result * 16 + digitValue c) cs
      else .error .invalidDigit := by
  have hvalue := digitValue_lt c
  have hfits : result * 16 + digitValue c < 256 := by omega
  rw [parseDigits, toDigit_sixteen]
  by_cases hdigit : IsHexDigit c
  · simp only [if_pos hdigit, if_pos hfits]
  · simp only [if_neg hdigit]

/-! ## What a pair is read as -/

/-- Two characters that `from_str_radix` takes for a number: a `+` in front is a
sign to it. -/
def AcceptedPair (hi lo : Char) : Prop :=
  (IsHexDigit hi ∨ hi = '+') ∧ IsHexDigit lo

instance (hi lo : Char) : Decidable (AcceptedPair hi lo) :=
  inferInstanceAs (Decidable (_ ∧ _))

theorem u8FromStrRadix_pair (hi lo : Char) : u8FromStrRadix [hi, lo] 16 =
    if AcceptedPair hi lo then .ok (pairValue hi lo)
    else .error .invalidDigit := by
  have hrest : ¬ ((hi = '+' ∨ hi = '-') ∧ [lo] = []) := fun h => by cases h.2
  rw [u8FromStrRadix, if_neg hrest]
  by_cases hplus : hi = '+'
  · have hzero : digitValue '+' = 0 := by decide
    rw [if_pos hplus, parseDigits_cons lo [] (by decide)]
    by_cases hlo : IsHexDigit lo <;>
      simp [AcceptedPair, hplus, hlo, parseDigits, pairValue, hzero]
  · rw [if_neg hplus, parseDigits_cons hi [lo] (by decide), Nat.zero_mul,
      Nat.zero_add, parseDigits_cons lo [] (digitValue_lt hi)]
    by_cases hhi : IsHexDigit hi <;> by_cases hlo : IsHexDigit lo <;>
      simp [AcceptedPair, hplus, hhi, hlo, parseDigits, pairValue, Nat.mul_comm]

/-- A character of several bytes is no number. -/
theorem u8FromStrRadix_wide {c : Char} (h : c.utf8Size ≠ 1) :
    u8FromStrRadix [c] 16 = .error .invalidDigit := by
  have hdigit : ¬ IsHexDigit c := fun hc => h (utf8Size_of_isHexDigit hc)
  have hplus : c ≠ '+' := by
    rintro rfl
    exact h (by decide)
  have hsign : ¬ ((c = '+' ∨ c = '-') ∧ ([] : List Char) = []) := by
    rintro ⟨rfl | rfl, -⟩ <;> exact h (by decide)
  rw [u8FromStrRadix, if_neg hsign, if_neg hplus,
    parseDigits_cons c [] (by decide), if_neg hdigit]
  rfl

/-! ## One round -/

/-- What is left behind the leading accepted pairs. -/
def afterPairs : List Char → List Char
  | hi :: lo :: cs =>
      if AcceptedPair hi lo then afterPairs cs else hi :: lo :: cs
  | cs => cs

/-- The first two bytes are whole characters: one of two bytes, or two of
one. -/
def CutsClean : List Char → Prop
  | [] => True
  | [c] => c.utf8Size = 2
  | c :: d :: _ => c.utf8Size = 2 ∨ (c.utf8Size = 1 ∧ d.utf8Size = 1)

instance (cs : List Char) : Decidable (CutsClean cs) :=
  match cs with
  | [] => inferInstanceAs (Decidable True)
  | [_] => inferInstanceAs (Decidable (_ = _))
  | _ :: _ :: _ => inferInstanceAs (Decidable (_ ∨ _))

theorem AcceptedPair.utf8Size {hi lo : Char} (h : AcceptedPair hi lo) :
    hi.utf8Size = 1 ∧ lo.utf8Size = 1 := by
  obtain ⟨hhi | rfl, hlo⟩ := h
  · exact ⟨utf8Size_of_isHexDigit hhi, utf8Size_of_isHexDigit hlo⟩
  · exact ⟨by decide, utf8Size_of_isHexDigit hlo⟩

/-- A round reads the two bytes behind `front`. -/
theorem parsePair_of_splitAt (front : List Char) {cs pair back : List Char}
    (h : Utf8.splitAt cs 2 = some (pair, back)) :
    parsePair (front ++ cs) (utf8Len front) =
      .ok ((u8FromStrRadix pair 16).mapError IntErrorKind.description) := by
  unfold parsePair sliceStr
  rw [Utf8.slice_append, h]
  rfl

/-- A round panics where its two bytes are not whole characters. -/
theorem parsePair_of_no_split (front : List Char) {cs : List Char}
    (h : Utf8.splitAt cs 2 = none) :
    parsePair (front ++ cs) (utf8Len front) = .error .sliceOutOfBounds := by
  unfold parsePair sliceStr
  rw [Utf8.slice_append, h]
  rfl

theorem parsePair_accepted (front cs : List Char) {hi lo : Char}
    (h : AcceptedPair hi lo) :
    parsePair (front ++ hi :: lo :: cs) (utf8Len front) =
      .ok (.ok (pairValue hi lo)) := by
  obtain ⟨hhi, hlo⟩ := h.utf8Size
  have hsplit : Utf8.splitAt (hi :: lo :: cs) 2 = some ([hi, lo], cs) :=
    Utf8.splitAt_eq_some_iff.mpr ⟨rfl, by simp [hhi, hlo]⟩
  rw [parsePair_of_splitAt front hsplit, u8FromStrRadix_pair, if_pos h]
  rfl

/-- Two bytes in front of a text are one character or two. -/
theorem splitAt_two_cases {cs pair back : List Char}
    (h : Utf8.splitAt cs 2 = some (pair, back)) :
    (∃ c, pair = [c] ∧ cs = c :: back ∧ c.utf8Size = 2) ∨
      ∃ c d, pair = [c, d] ∧ cs = c :: d :: back ∧ c.utf8Size = 1 ∧
        d.utf8Size = 1 := by
  obtain ⟨rfl, hlen⟩ := Utf8.splitAt_eq_some_iff.mp h
  rcases pair with _ | ⟨c, _ | ⟨d, pair⟩⟩
  · cases hlen
  · exact Or.inl ⟨c, rfl, rfl, by simpa using hlen⟩
  · have hc := c.utf8Size_pos
    have hd := d.utf8Size_pos
    simp only [String.utf8Len_cons] at hlen
    have hpair : pair = [] := String.utf8Len_eq_zero.mp (by omega)
    subst hpair
    exact Or.inr ⟨c, d, rfl, rfl, by omega, by omega⟩

/-- **Two bytes that are whole characters can be cut off, and no others.** -/
theorem cutsClean_iff {cs : List Char} (hne : cs ≠ []) :
    CutsClean cs ↔ ∃ pair back, Utf8.splitAt cs 2 = some (pair, back) := by
  constructor
  · intro h
    rcases cs with _ | ⟨c, cs⟩
    · exact absurd rfl hne
    · by_cases hc : c.utf8Size = 2
      · exact ⟨[c], cs, Utf8.splitAt_eq_some_iff.mpr ⟨rfl, by simp [hc]⟩⟩
      · rcases cs with _ | ⟨d, cs⟩
        · exact absurd h hc
        · obtain ⟨hc, hd⟩ := h.resolve_left hc
          exact ⟨[c, d], cs,
            Utf8.splitAt_eq_some_iff.mpr ⟨rfl, by simp [hc, hd]⟩⟩
  · rintro ⟨pair, back, h⟩
    rcases splitAt_two_cases h with ⟨c, -, rfl, hc⟩ | ⟨c, d, -, rfl, hcd⟩
    · rcases back with _ | ⟨d, back⟩
      · exact hc
      · exact Or.inl hc
    · exact Or.inr hcd

/-- **A text that no accepted pair leads ends the loop**, with an error or with
a panic. -/
theorem parsePair_rejected (front : List Char) {cs : List Char} (hne : cs ≠ [])
    (hlead : ∀ hi lo back, cs = hi :: lo :: back → ¬ AcceptedPair hi lo) :
    parsePair (front ++ cs) (utf8Len front) =
      if CutsClean cs then .ok (.error IntErrorKind.invalidDigit.description)
      else .error .sliceOutOfBounds := by
  rcases hsplit : Utf8.splitAt cs 2 with _ | ⟨pair, back⟩
  · have hcut : ¬ CutsClean cs := by
      rw [cutsClean_iff hne, hsplit]
      simp
    rw [parsePair_of_no_split front hsplit, if_neg hcut]
  · have hcut : CutsClean cs := (cutsClean_iff hne).mpr ⟨pair, back, hsplit⟩
    have hread : u8FromStrRadix pair 16 = .error .invalidDigit := by
      rcases splitAt_two_cases hsplit with ⟨c, rfl, -, hc⟩ | ⟨c, d, rfl, hcs, -⟩
      · exact u8FromStrRadix_wide (by omega)
      · rw [u8FromStrRadix_pair, if_neg (hlead c d back hcs)]
    rw [parsePair_of_splitAt front hsplit, if_pos hcut, hread]
    rfl

/-! ## The whole text -/

/-- What the loop makes of a text. -/
def pairsOutcome (cs : List Char) : Rust (Except String (List UInt8)) :=
  if afterPairs cs = [] then .ok (.ok (pairValues cs))
  else if CutsClean (afterPairs cs) then
    .ok (.error IntErrorKind.invalidDigit.description)
  else .error .sliceOutOfBounds

/-- The loop returns bytes exactly if nothing is left behind the pairs. -/
theorem pairsOutcome_eq_ok_iff {cs : List Char} {bytes : List UInt8} :
    pairsOutcome cs = .ok (.ok bytes) ↔
      afterPairs cs = [] ∧ bytes = pairValues cs := by
  unfold pairsOutcome
  by_cases hpairs : afterPairs cs = []
  · rw [if_pos hpairs, Except.ok.injEq, Except.ok.injEq, eq_comm]
    exact (and_iff_right hpairs).symm
  · rw [if_neg hpairs]
    by_cases hcut : CutsClean (afterPairs cs) <;> simp [hpairs, hcut]

/-- The loop returns at all exactly if it cuts no character in two. -/
theorem pairsOutcome_returns_iff {cs : List Char} :
    (∃ result, pairsOutcome cs = .ok result) ↔ CutsClean (afterPairs cs) := by
  unfold pairsOutcome
  by_cases hpairs : afterPairs cs = []
  · rw [if_pos hpairs, hpairs]
    exact ⟨fun _ => trivial, fun _ => ⟨_, rfl⟩⟩
  · rw [if_neg hpairs]
    by_cases hcut : CutsClean (afterPairs cs) <;> simp [hcut]

theorem pairsOutcome_accepted {hi lo : Char} (cs : List Char)
    (h : AcceptedPair hi lo) :
    pairsOutcome (hi :: lo :: cs) =
      (pairsOutcome cs).map fun result => result.map (pairValue hi lo :: ·) := by
  unfold pairsOutcome
  rw [afterPairs, if_pos h, pairValues]
  split_ifs <;> rfl

theorem collect_cons_ok {α β ε : Type} {f : α → Rust (Except ε β)} {x : α}
    {b : β} (xs : List α) (h : f x = .ok (.ok b)) :
    collect f (x :: xs) =
      (collect f xs).map fun result => result.map (b :: ·) := by
  rw [collect, h]
  rcases collect f xs with p | result <;> rfl

/-- The positions of the rounds from byte `n` on. -/
theorem positions_succ (n rounds : ℕ) :
    (List.range (rounds + 1)).map (n + 2 * ·) =
      n :: (List.range rounds).map (n + 2 + 2 * ·) := by
  rw [List.range_succ_eq_map, List.map_cons, List.map_map]
  congr 2
  funext j
  simp only [Function.comp_apply]
  omega

/-- Where no accepted pair leads, the first round ends the loop. -/
theorem collect_parsePair_rejected (front : List Char) {cs : List Char}
    {rounds : ℕ} (hrounds : utf8Len cs = 2 * rounds) (hne : cs ≠ [])
    (hlead : ∀ hi lo back, cs = hi :: lo :: back → ¬ AcceptedPair hi lo) :
    collect (parsePair (front ++ cs))
        ((List.range rounds).map (utf8Len front + 2 * ·)) =
      if CutsClean cs then .ok (.error IntErrorKind.invalidDigit.description)
      else .error .sliceOutOfBounds := by
  rcases rounds with _ | rounds
  · exact absurd (String.utf8Len_eq_zero.mp hrounds) hne
  · rw [positions_succ, collect, parsePair_rejected front hne hlead]
    split <;> rfl

/-- **The loop takes one pair after the other**; by induction over the pairs,
with `front` behind it. -/
theorem collect_parsePair (front : List Char) {cs : List Char} {rounds : ℕ}
    (hrounds : utf8Len cs = 2 * rounds) :
    collect (parsePair (front ++ cs))
        ((List.range rounds).map (utf8Len front + 2 * ·)) =
      pairsOutcome cs := by
  induction cs using afterPairs.induct generalizing front rounds with
  | case1 hi lo cs h ih =>
      obtain ⟨hhi, hlo⟩ := h.utf8Size
      rcases rounds with _ | rounds
      · cases String.utf8Len_eq_zero.mp hrounds
      · have hrest : utf8Len cs = 2 * rounds := by
          simp only [String.utf8Len_cons, hhi, hlo] at hrounds
          omega
        have hfront : utf8Len (front ++ [hi, lo]) = utf8Len front + 2 := by
          simp [hhi, hlo]
        have hloop := ih (front ++ [hi, lo]) hrest
        rw [hfront, List.append_assoc, List.cons_append, List.cons_append,
          List.nil_append] at hloop
        rw [positions_succ, collect_cons_ok _ (parsePair_accepted front cs h),
          hloop, pairsOutcome_accepted cs h]
  | case2 hi lo cs h =>
      have hself : afterPairs (hi :: lo :: cs) = hi :: lo :: cs := by
        rw [afterPairs, if_neg h]
      unfold pairsOutcome
      rw [hself, if_neg (List.cons_ne_nil _ _)]
      apply collect_parsePair_rejected front hrounds (List.cons_ne_nil _ _)
      rintro _ _ _ ⟨⟩
      exact h
  | case3 cs hshort =>
      have hself : afterPairs cs = cs := afterPairs.eq_2 cs hshort
      rcases eq_or_ne cs [] with rfl | hne
      · obtain rfl : rounds = 0 := by simpa using hrounds
        rfl
      · unfold pairsOutcome
        rw [hself, if_neg hne]
        exact collect_parsePair_rejected front hrounds hne
          fun hi lo back hcs => absurd hcs (hshort hi lo back)

/-- **The result of the parser for every text.** -/
theorem parseHex_eq (hex : String) :
    parseHex hex =
      if utf8Len (withoutSpaces hex) % 2 = 1 then
        .ok (.error "hex string has odd length")
      else pairsOutcome (withoutSpaces hex) := by
  by_cases hodd : utf8Len (withoutSpaces hex) % 2 = 1
  · unfold parseHex
    rw [if_pos (by omega), if_pos hodd]
    rfl
  · have hrounds : utf8Len (withoutSpaces hex) =
        2 * ((utf8Len (withoutSpaces hex) + 1) / 2) := by omega
    have hloop := collect_parsePair [] hrounds
    simp only [List.nil_append, String.utf8Len_nil, Nat.zero_add] at hloop
    unfold parseHex
    rw [if_neg (by omega), if_neg hodd, hloop]

example : parseHex "08 eE 1A" = .ok (.ok [0x08, 0xEE, 0x1A]) := by decide

/-! ## What is accepted -/

/-- Pairs fill an even number of bytes. -/
theorem utf8Len_of_afterPairs {cs : List Char} (h : afterPairs cs = []) :
    utf8Len cs % 2 = 0 := by
  induction cs using afterPairs.induct with
  | case1 hi lo cs hpair ih =>
      obtain ⟨hhi, hlo⟩ := hpair.utf8Size
      rw [afterPairs, if_pos hpair] at h
      have hrest := ih h
      simp only [String.utf8Len_cons, hhi, hlo]
      omega
  | case2 hi lo cs hpair =>
      rw [afterPairs, if_neg hpair] at h
      cases h
  | case3 cs hshort =>
      rw [afterPairs.eq_2 cs hshort] at h
      rw [h]
      rfl

/-- **A text is accepted exactly if it consists of accepted pairs.** -/
theorem parseHex_eq_ok_iff {hex : String} {bytes : List UInt8} :
    parseHex hex = .ok (.ok bytes) ↔
      afterPairs (withoutSpaces hex) = [] ∧
        bytes = pairValues (withoutSpaces hex) := by
  rw [parseHex_eq, ← pairsOutcome_eq_ok_iff]
  by_cases hodd : utf8Len (withoutSpaces hex) % 2 = 1
  · -- Accepted pairs would fill an even number of bytes.
    have hleft : afterPairs (withoutSpaces hex) ≠ [] := by
      intro hpairs
      rw [utf8Len_of_afterPairs hpairs] at hodd
      cases hodd
    rw [if_pos hodd, pairsOutcome_eq_ok_iff]
    simp [hleft]
  · rw [if_neg hodd]

theorem not_isHexDigit_plus : ¬ IsHexDigit '+' := by decide

/-- **Hex is what consists of accepted pairs without a sign**; by induction over
the pairs. -/
theorem even_digits_iff (cs : List Char) :
    (cs.length % 2 = 0 ∧ ∀ c ∈ cs, IsHexDigit c) ↔
      afterPairs cs = [] ∧ '+' ∉ cs := by
  induction cs using afterPairs.induct with
  | case1 hi lo cs hpair ih =>
      have hhi : IsHexDigit hi ↔ '+' ≠ hi := by
        constructor
        · rintro hdigit rfl
          exact not_isHexDigit_plus hdigit
        · exact fun hne => hpair.1.resolve_right (Ne.symm hne)
      have hlo : '+' ≠ lo := by
        rintro rfl
        exact not_isHexDigit_plus hpair.2
      have hlen : (hi :: lo :: cs).length % 2 = cs.length % 2 := by
        simp only [List.length_cons]
        omega
      rw [afterPairs, if_pos hpair, hlen, List.forall_mem_cons,
        List.forall_mem_cons, List.mem_cons, List.mem_cons, not_or, not_or, hhi,
        and_left_comm, and_left_comm (b := IsHexDigit lo), ih]
      simp only [hpair.2, hlo, ne_eq, not_false_eq_true, true_and]
      exact and_left_comm
  | case2 hi lo cs hpair =>
      rw [afterPairs, if_neg hpair]
      constructor
      · rintro ⟨-, hdigits⟩
        have hhi := hdigits hi List.mem_cons_self
        have hlo := hdigits lo (List.mem_cons_of_mem _ List.mem_cons_self)
        exact absurd ⟨Or.inl hhi, hlo⟩ hpair
      · rintro ⟨hpairs, -⟩
        cases hpairs
  | case3 cs hshort =>
      rw [afterPairs.eq_2 cs hshort]
      rcases cs with _ | ⟨c, _ | ⟨d, cs⟩⟩
      · simp
      · simp
      · exact absurd rfl (hshort c d cs)

theorem isHexOf_iff {bytes : List UInt8} {cs : List Char} :
    IsHexOf bytes cs ↔
      (afterPairs cs = [] ∧ '+' ∉ cs) ∧ bytes = pairValues cs := by
  rw [← even_digits_iff]
  exact ⟨fun h => ⟨⟨h.even, h.digits⟩, h.values⟩,
    fun h => ⟨h.1.1, h.1.2, h.2⟩⟩

/-! ## Exactness -/

/-- A digit of hex, in capitals or not. -/
def hexDigit (upper : Bool) (d : ℕ) : Char :=
  (if upper then "0123456789ABCDEF" else "0123456789abcdef").toList.getD d '0'

/-- Bytes written in hex. -/
def hexText (upper : Bool) (bytes : List UInt8) : List Char :=
  bytes.flatMap fun b =>
    [hexDigit upper (b.toNat / 16), hexDigit upper (b.toNat % 16)]

/-- What the parser says about a text, if it returns, is what the grammar says.
Hex is read, and so are bytes written in hex. -/
structure HexExact (hex : String) : Prop where
  accepts : ∀ result, parseHex hex = .ok result → ∀ bytes,
    result = .ok bytes ↔ IsHexOf bytes (withoutSpaces hex)
  rejects : ∀ result, parseHex hex = .ok result →
    (∃ c ∈ withoutSpaces hex, ¬ IsHexDigit c) → ∃ e, result = .error e
  reads : ∀ bytes, IsHexOf bytes (withoutSpaces hex) →
    parseHex hex = .ok (.ok bytes)
  written : ∀ upper bytes, withoutSpaces hex = hexText upper bytes →
    parseHex hex = .ok (.ok bytes)

theorem digitValue_hexDigit : ∀ (upper : Bool), ∀ d < 16,
    IsHexDigit (hexDigit upper d) ∧ digitValue (hexDigit upper d) = d := by
  decide

/-- **Bytes written in hex are hex of these bytes.** -/
theorem isHexOf_hexText (upper : Bool) (bytes : List UInt8) :
    IsHexOf bytes (hexText upper bytes) := by
  induction bytes with
  | nil => exact ⟨rfl, by simp [hexText], rfl⟩
  | cons b bytes ih =>
      have hb := b.toNat_lt
      obtain ⟨hhi, hhiValue⟩ :=
        digitValue_hexDigit upper (b.toNat / 16) (by omega)
      obtain ⟨hlo, hloValue⟩ :=
        digitValue_hexDigit upper (b.toNat % 16) (by omega)
      have htext : hexText upper (b :: bytes) = hexDigit upper (b.toNat / 16) ::
          hexDigit upper (b.toNat % 16) :: hexText upper bytes := rfl
      rw [htext]
      constructor
      case even =>
        have heven := ih.even
        simp only [List.length_cons]
        omega
      case digits =>
        exact List.forall_mem_cons.mpr
          ⟨hhi, List.forall_mem_cons.mpr ⟨hlo, ih.digits⟩⟩
      case values =>
        rw [pairValues, ← ih.values, pairValue, hhiValue, hloValue,
          Nat.div_add_mod, UInt8.ofNat_toNat]

/-- Hex is always read. -/
theorem IsHexOf.parseHex {bytes : List UInt8} {hex : String}
    (h : IsHexOf bytes (withoutSpaces hex)) :
    parseHex hex = .ok (.ok bytes) := by
  obtain ⟨⟨hpairs, -⟩, hvalues⟩ := isHexOf_iff.mp h
  exact parseHex_eq_ok_iff.mpr ⟨hpairs, hvalues⟩

theorem parseHex_hexText {hex : String} {upper : Bool} {bytes : List UInt8}
    (h : withoutSpaces hex = hexText upper bytes) :
    parseHex hex = .ok (.ok bytes) := by
  apply IsHexOf.parseHex
  rw [h]
  exact isHexOf_hexText upper bytes

/-- **When the parser is exact**: unless the text consists of pairs that it
accepts and a sign is among them. -/
theorem parseHex_exact_iff (hex : String) :
    HexExact hex ↔
      ¬ (afterPairs (withoutSpaces hex) = [] ∧ '+' ∈ withoutSpaces hex) := by
  constructor
  · rintro h ⟨hpairs, hplus⟩
    have hok : parseHex hex = .ok (.ok (pairValues (withoutSpaces hex))) :=
      parseHex_eq_ok_iff.mpr ⟨hpairs, rfl⟩
    have hhex := (h.accepts _ hok _).mp rfl
    exact (isHexOf_iff.mp hhex).1.2 hplus
  · intro h
    have haccepts : ∀ result, parseHex hex = .ok result → ∀ bytes,
        result = .ok bytes ↔ IsHexOf bytes (withoutSpaces hex) := by
      intro result hresult bytes
      constructor
      · rintro rfl
        obtain ⟨hpairs, hvalues⟩ := parseHex_eq_ok_iff.mp hresult
        exact isHexOf_iff.mpr
          ⟨⟨hpairs, fun hplus => h ⟨hpairs, hplus⟩⟩, hvalues⟩
      · intro hhex
        have hok := hhex.parseHex
        rw [hresult] at hok
        exact Except.ok.inj hok
    refine ⟨haccepts, ?_, fun _ hhex => hhex.parseHex,
      fun _ _ htext => parseHex_hexText htext⟩
    rintro (e | bytes) hresult ⟨c, hc, hdigit⟩
    · exact ⟨e, rfl⟩
    · have hhex := (haccepts _ hresult bytes).mp rfl
      exact absurd (hhex.digits c hc) hdigit

/-- A sign is taken for a digit. -/
theorem parseHex_plus_accepted : ¬ ∀ hex : String, HexExact hex := by
  intro h
  have hok : parseHex "+5" = .ok (.ok [5]) := by decide
  have hhex := ((h "+5").accepts _ hok [5]).mp rfl
  exact absurd (hhex.digits '+' (by decide)) (by decide)

/-! ## Panics -/

/-- **When the parser returns**: the bytes are odd in number, or what is left
behind the leading pairs is nothing, or begins with two bytes that are whole
characters. -/
theorem parseHex_returns_iff (hex : String) :
    (∃ result, parseHex hex = .ok result) ↔
      utf8Len (withoutSpaces hex) % 2 = 1 ∨
        CutsClean (afterPairs (withoutSpaces hex)) := by
  rw [parseHex_eq]
  by_cases hodd : utf8Len (withoutSpaces hex) % 2 = 1
  · rw [if_pos hodd]
    exact ⟨fun _ => Or.inl hodd, fun _ => ⟨_, rfl⟩⟩
  · rw [if_neg hodd, pairsOutcome_returns_iff]
    exact (or_iff_right hodd).symm

/-- A character of three bytes is cut in two. -/
theorem parseHex_panics :
    ¬ ∀ hex : String, ∃ result, parseHex hex = .ok result := by
  intro h
  obtain ⟨result, hresult⟩ := h "€a"
  have hpanic : parseHex "€a" = .error .sliceOutOfBounds := by decide
  rw [hpanic] at hresult
  cases hresult

end MicRs
