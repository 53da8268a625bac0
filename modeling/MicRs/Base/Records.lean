import Mathlib.Data.List.Basic
import Mathlib.Tactic.Ring

/-!
# Tables of fixed-width records

A table is the encodings of its records laid end to end, every one of them
`w` items long. Record `k` starts at `w * k` (`drop_flatMap`), wherever the
table itself starts and whatever follows it (`drop_table`), and what is
shorter than a record holds none (`count_table`).
-/

namespace MicRs.Records

variable {α β : Type*} {w : ℕ} {enc : α → List β}

theorem length_flatMap (henc : ∀ x, (enc x).length = w) (xs : List α) :
    (xs.flatMap enc).length = w * xs.length := by
  induction xs with
  | nil => simp
  | cons x xs ih =>
      rw [List.flatMap_cons, List.length_append, henc, ih, List.length_cons]
      ring

/-- Skipping `k` records. -/
theorem drop_flatMap (henc : ∀ x, (enc x).length = w) (xs : List α) (k : ℕ) :
    (xs.flatMap enc).drop (w * k) = (xs.drop k).flatMap enc := by
  induction k generalizing xs with
  | zero => simp
  | succ k ih =>
      cases xs with
      | nil => simp
      | cons x xs =>
          have hlen : w * (k + 1) = (enc x).length + w * k := by
            rw [henc]
            ring
          rw [List.flatMap_cons, hlen, ← List.drop_drop, List.drop_left, ih,
            List.drop_succ_cons]

/-- **Record `k` of a table that starts at `lo`**, and what follows it. -/
theorem drop_table (henc : ∀ x, (enc x).length = w) {bytes trailing : List β}
    {xs : List α} {lo k : ℕ} (hk : k < xs.length)
    (htable : bytes.drop lo = xs.flatMap enc ++ trailing) :
    bytes.drop (lo + w * k) =
      enc xs[k] ++ ((xs.drop (k + 1)).flatMap enc ++ trailing) := by
  have hroom : w * k ≤ (xs.flatMap enc).length := by
    rw [length_flatMap henc]
    exact Nat.mul_le_mul_left w hk.le
  rw [← List.drop_drop, htable, List.drop_append_of_le_length hroom,
    drop_flatMap henc, List.drop_eq_getElem_cons hk, List.flatMap_cons,
    List.append_assoc]

/-- As many whole records fit behind `lo` as the table has, when what follows
it is too short for another. -/
theorem count_table (henc : ∀ x, (enc x).length = w) {bytes trailing : List β}
    {xs : List α} {lo : ℕ} (hshort : trailing.length < w)
    (htable : bytes.drop lo = xs.flatMap enc ++ trailing) :
    (bytes.length - lo) / w = xs.length := by
  have hlen := congrArg List.length htable
  rw [List.length_drop, List.length_append, length_flatMap henc] at hlen
  rw [hlen, Nat.add_comm, Nat.add_mul_div_left _ _ (by omega),
    Nat.div_eq_of_lt hshort, Nat.zero_add]

end MicRs.Records
