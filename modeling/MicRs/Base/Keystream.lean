import Mathlib.Data.List.Basic
import Mathlib.Data.Nat.Cast.Basic

/-!
# Keystream ciphers and counter mode

A keystream cipher combines position `i` of the data with position `i` of a
keystream. Whatever the combining operation is, the cipher preserves length
and cuts along the data (`applyKeystream_append`); when the operation undoes
itself, so does the cipher (`applyKeystream_involutive`). Counter mode is the
keystream that lays the blocks of a block function end to end
(`blockStream`); the data is combined with the blocks under it
(`applyKeystream_blocks`), and skipping whole blocks is moving the counter
(`blockStream_add_mul`).
-/

namespace MicRs.Keystream

variable {α κ : Type*} (mask : α → κ → α)

/-- Combine each datum with the keystream at its position. -/
def applyKeystream (ks : ℕ → κ) (data : List α) : List α :=
  data.mapIdx fun i a => mask a (ks i)

@[simp] theorem length_applyKeystream (ks : ℕ → κ) (data : List α) :
    (applyKeystream mask ks data).length = data.length := by
  simp [applyKeystream]

theorem applyKeystream_append (ks : ℕ → κ) (xs ys : List α) :
    applyKeystream mask ks (xs ++ ys) =
      applyKeystream mask ks xs ++
        applyKeystream mask (fun i => ks (i + xs.length)) ys :=
  List.mapIdx_append

/-- **A self-inverse mask makes a self-inverse cipher.** -/
theorem applyKeystream_involutive (hmask : ∀ a k, mask (mask a k) k = a)
    (ks : ℕ → κ) (data : List α) :
    applyKeystream mask ks (applyKeystream mask ks data) = data := by
  apply List.ext_getElem (by simp)
  intro i _ _
  simp only [applyKeystream, List.getElem_mapIdx, hmask]

/-! ## Counter mode -/

/-- The blocks `blk 0`, `blk 1`, … laid end to end. -/
def blockStream {n : ℕ} [NeZero n] (blk : ℕ → Vector κ n) (i : ℕ) : κ :=
  (blk (i / n)).get ⟨i % n, Nat.mod_lt i (Nat.pos_of_neZero n)⟩

theorem blockStream_add_mul {n : ℕ} [NeZero n] (blk : ℕ → Vector κ n)
    (i k : ℕ) :
    blockStream blk (i + n * k) = blockStream (fun j => blk (j + k)) i := by
  have hdiv : (i + n * k) / n = i / n + k :=
    Nat.add_mul_div_left i k (Nat.pos_of_neZero n)
  have hmod : (i + n * k) % n = i % n := Nat.add_mul_mod_self_left i n k
  simp only [blockStream, hdiv, hmod]

theorem length_flatMap_blocks {n : ℕ} (blk : ℕ → Vector κ n) (m : ℕ) :
    ((List.range m).flatMap fun k => (blk k).toList).length = n * m := by
  induction m with
  | zero => rfl
  | succ m ih =>
      rw [List.range_succ, List.flatMap_append, List.length_append, ih,
        List.flatMap_singleton, Vector.length_toList, Nat.mul_succ]

/-- The first blocks of a stream, laid end to end. -/
theorem getElem_flatMap_blocks {n : ℕ} [NeZero n] (blk : ℕ → Vector κ n)
    (m i : ℕ) (hi : i < ((List.range m).flatMap fun k => (blk k).toList).length) :
    ((List.range m).flatMap fun k => (blk k).toList)[i] = blockStream blk i := by
  induction m with
  | zero => exact absurd hi (Nat.not_lt_zero i)
  | succ m ih =>
      simp only [List.range_succ, List.flatMap_append, List.flatMap_singleton]
      rw [List.getElem_append]
      split
      · exact ih _
      · -- The last block, from its first position on.
        rename_i hlast
        simp only [length_flatMap_blocks, Nat.mul_succ, Nat.not_lt]
          at hi hlast ⊢
        obtain ⟨j, rfl⟩ := Nat.exists_eq_add_of_le hlast
        have hj : j < n := Nat.add_lt_add_iff_left.mp hi
        simp only [blockStream, Nat.mul_add_div (Nat.pos_of_neZero n),
          Nat.div_eq_of_lt hj, Nat.mul_add_mod, Nat.mod_eq_of_lt hj,
          Nat.add_sub_cancel_left]
        rfl

/-- **The blocks under the data are all that is used.** -/
theorem applyKeystream_blocks {n : ℕ} [NeZero n] (blk : ℕ → Vector κ n)
    {m : ℕ} {data : List α} (hlen : data.length ≤ n * m) :
    applyKeystream mask (blockStream blk) data =
      List.zipWith mask data
        ((List.range m).flatMap fun k => (blk k).toList) := by
  have hwidth := length_flatMap_blocks blk m
  apply List.ext_getElem
  · rw [length_applyKeystream, List.length_zipWith, hwidth]
    omega
  · intro i hi hi'
    simp only [applyKeystream, List.getElem_mapIdx, List.getElem_zipWith,
      getElem_flatMap_blocks]
/-- **Counter mode may be restarted between chunks** of `m` blocks: chunk `i`
starts at block `m * i`. -/
theorem applyKeystream_flatten {n : ℕ} [NeZero n] (blk : ℕ → Vector κ n)
    {m : ℕ} {chunks : List (List α)} (hlen : ∀ chunk ∈ chunks,
      chunk.length = n * m) :
    applyKeystream mask (blockStream blk) chunks.flatten =
      (chunks.mapIdx fun i chunk => applyKeystream mask
        (blockStream fun j => blk (j + m * i)) chunk).flatten := by
  induction chunks generalizing blk with
  | nil => rfl
  | cons chunk chunks ih =>
      have hrest := ih (fun j => blk (j + m))
        fun c hc => hlen c (List.mem_cons_of_mem _ hc)
      have hshift : (fun i => blockStream blk (i + chunk.length)) =
          blockStream fun j => blk (j + m) := by
        funext i
        rw [hlen chunk List.mem_cons_self, blockStream_add_mul]
      have hblock : ∀ i j, j + m * i + m = j + m * (i + 1) := by
        intro i j
        rw [Nat.mul_succ, Nat.add_assoc]
      rw [List.flatten_cons, applyKeystream_append, hshift, hrest,
        List.mapIdx_cons, List.flatten_cons]
      simp only [hblock, Nat.mul_zero, Nat.add_zero]

end MicRs.Keystream
