import Mathlib.Data.List.Basic

/-!
# Streams of self-delimiting frames

A frame is self-delimiting when a reader that finds it in front of anything
takes it off and leaves the rest (`Delimits`). Frames of that kind laid end to
end are read back one after the other (`readAll_encode`), so no other frames
give the same stream (`flatMap_injective`).
-/

namespace MicRs.Framing

variable {α β : Type*}

/-- The reader takes the encoding of `x` off the front of any stream. -/
structure Delimits (read : List β → Option (α × List β)) (enc : α → List β)
    (x : α) : Prop where
  nonempty : enc x ≠ []
  reads : ∀ rest, read (enc x ++ rest) = some (x, rest)

/-- Read frames until nothing is left; a frame takes fuel. -/
def readAllLoop (read : List β → Option (α × List β)) :
    ℕ → List β → Option (List α)
  | _, [] => some []
  | 0, _ :: _ => none
  | fuel + 1, b :: bs =>
      (read (b :: bs)).bind fun (x, rest) =>
        (readAllLoop read fuel rest).map (x :: ·)

/-- A frame has at least one item, so the length is fuel enough. -/
def readAll (read : List β → Option (α × List β)) (bytes : List β) :
    Option (List α) :=
  readAllLoop read bytes.length bytes

variable {read : List β → Option (α × List β)} {enc : α → List β}

theorem readAllLoop_encode {xs : List α} {fuel : ℕ}
    (hxs : ∀ x ∈ xs, Delimits read enc x) (hfuel : xs.length ≤ fuel) :
    readAllLoop read fuel (xs.flatMap enc) = some xs := by
  induction xs generalizing fuel with
  | nil => rcases fuel with _ | fuel <;> rfl
  | cons x xs ih =>
      rcases fuel with _ | fuel
      · cases hfuel
      · obtain ⟨hne, hread⟩ := hxs x List.mem_cons_self
        obtain ⟨b, bs, hb⟩ := List.exists_cons_of_ne_nil hne
        have hrest := ih (fun y hy => hxs y (List.mem_cons_of_mem x hy))
          (Nat.le_of_succ_le_succ hfuel)
        have hfirst := hread (xs.flatMap enc)
        rw [hb, List.cons_append] at hfirst
        rw [List.flatMap_cons, hb, List.cons_append, readAllLoop, hfirst]
        simp [hrest]

theorem length_le_flatMap {xs : List α} (hne : ∀ x ∈ xs, enc x ≠ []) :
    xs.length ≤ (xs.flatMap enc).length := by
  induction xs with
  | nil => exact Nat.le_refl 0
  | cons x xs ih =>
      have hpos := List.length_pos_iff.mpr (hne x List.mem_cons_self)
      have hrest := ih fun y hy => hne y (List.mem_cons_of_mem x hy)
      rw [List.flatMap_cons, List.length_append, List.length_cons]
      omega

/-- **A stream of frames is read back, all of it.** -/
theorem readAll_encode {xs : List α} (hxs : ∀ x ∈ xs, Delimits read enc x) :
    readAll read (xs.flatMap enc) = some xs :=
  readAllLoop_encode hxs (length_le_flatMap fun x hx => (hxs x hx).nonempty)

/-- **Different frames give different streams.** -/
theorem flatMap_injective (h : ∀ x, Delimits read enc x) :
    Function.Injective fun xs : List α => xs.flatMap enc := by
  intro xs ys heq
  have hread : ∀ zs : List α, readAll read (zs.flatMap enc) = some zs :=
    fun zs => readAll_encode fun z _ => h z
  have hsome := hread xs
  rw [show xs.flatMap enc = ys.flatMap enc from heq, hread ys] at hsome
  exact (Option.some.inj hsome).symm

end MicRs.Framing
