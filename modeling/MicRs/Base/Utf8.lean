import Mathlib.Data.String.Basic

/-!
# Text and byte offsets

Text is cut at byte offsets of its UTF-8 encoding, where a character takes one
to four bytes. A cut is made in front of a character or not at all: `splitAt`
has a value exactly if the offset is a character boundary
(`splitAt_eq_some_iff`), and what is cut out behind a beginning of the text does
not depend on that beginning (`slice_append`).
-/

namespace MicRs.Utf8

open String

/-- The text in front of byte offset `n` and the text from there on, if `n` is a
character boundary. -/
def splitAt : List Char → ℕ → Option (List Char × List Char)
  | cs, 0 => some ([], cs)
  | [], _ + 1 => none
  | c :: cs, n + 1 =>
      if c.utf8Size ≤ n + 1 then
        (splitAt cs (n + 1 - c.utf8Size)).map fun (front, back) =>
          (c :: front, back)
      else none

/-- The text between two byte offsets, if both are character boundaries. -/
def slice (cs : List Char) (lo hi : ℕ) : Option (List Char) :=
  if lo ≤ hi then
    (splitAt cs lo).bind fun (_, back) =>
      (splitAt back (hi - lo)).map Prod.fst
  else none

theorem splitAt_zero (cs : List Char) : splitAt cs 0 = some ([], cs) := by
  cases cs <;> rfl

theorem splitAt_cons (c : Char) (cs : List Char) (n : ℕ) :
    splitAt (c :: cs) (c.utf8Size + n) =
      (splitAt cs n).map fun (front, back) => (c :: front, back) := by
  obtain ⟨m, hm⟩ : ∃ m, c.utf8Size + n = m + 1 :=
    ⟨c.utf8Size + n - 1, by have := c.utf8Size_pos; omega⟩
  have hle : c.utf8Size ≤ m + 1 := by omega
  have hrest : m + 1 - c.utf8Size = n := by omega
  rw [hm, splitAt, if_pos hle, hrest]

/-- **A beginning of the text is cut off at its own length.** -/
theorem splitAt_append (front back : List Char) :
    splitAt (front ++ back) (utf8Len front) = some (front, back) := by
  induction front with
  | nil => exact splitAt_zero back
  | cons c front ih =>
      rw [utf8Len_cons, Nat.add_comm, List.cons_append, splitAt_cons, ih]
      rfl

/-- **A cut is made exactly at a character boundary.** -/
theorem splitAt_eq_some_iff {cs front back : List Char} {n : ℕ} :
    splitAt cs n = some (front, back) ↔
      front ++ back = cs ∧ utf8Len front = n := by
  constructor
  · intro h
    induction cs generalizing front n with
    | nil =>
        cases n with
        | zero =>
            cases h
            exact ⟨rfl, rfl⟩
        | succ n => cases h
    | cons c cs ih =>
        cases n with
        | zero =>
            cases h
            exact ⟨rfl, rfl⟩
        | succ n =>
            rw [splitAt] at h
            split at h
            · next hle =>
                rw [Option.map_eq_some_iff] at h
                obtain ⟨⟨front', back'⟩, hsplit, hpair⟩ := h
                cases hpair
                obtain ⟨rfl, hlen⟩ := ih hsplit
                refine ⟨rfl, ?_⟩
                rw [utf8Len_cons, hlen]
                omega
            · cases h
  · rintro ⟨rfl, rfl⟩
    exact splitAt_append front back

theorem slice_append (front back : List Char) (n : ℕ) :
    slice (front ++ back) (utf8Len front) (utf8Len front + n) =
      (splitAt back n).map Prod.fst := by
  rw [slice, if_pos (Nat.le_add_right _ _), splitAt_append,
    Nat.add_sub_cancel_left, Option.bind_some]

end MicRs.Utf8
