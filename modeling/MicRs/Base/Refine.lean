import Mathlib.Data.List.Basic

/-!
# Refinement up to failures

A program with state and errors refines another one up to the errors in `fail`
if it does the same or ends in such an error. The relation is kept by
sequencing and by loops over a list, so a program refines another one as soon
as its parts do.
-/

namespace MicRs.Refine

variable {ε σ α β : Type}

def Refines (fail : ε → Prop) (x y : EStateM ε σ α) : Prop :=
  ∀ s, x.run s = y.run s ∨ ∃ e s', fail e ∧ x.run s = .error e s'

variable {fail : ε → Prop}

theorem Refines.refl (x : EStateM ε σ α) : Refines fail x x :=
  fun _ => Or.inl rfl

theorem Refines.bind {x y : EStateM ε σ α} {f g : α → EStateM ε σ β}
    (hxy : Refines fail x y) (hfg : ∀ a, Refines fail (f a) (g a)) :
    Refines fail (x >>= f) (y >>= g) := by
  intro s
  rcases hxy s with h | ⟨e, s', hfail, h⟩
  · rw [EStateM.run_bind, EStateM.run_bind, h]
    rcases y.run s with ⟨a, s'⟩ | ⟨e, s'⟩
    · exact hfg a s'
    · exact Or.inl rfl
  · exact Or.inr ⟨e, s', hfail, by rw [EStateM.run_bind, h]⟩

theorem Refines.foldlM {f g : β → α → EStateM ε σ β}
    (h : ∀ b a, Refines fail (f b a) (g b a)) (xs : List α) (b : β) :
    Refines fail (xs.foldlM f b) (xs.foldlM g b) := by
  induction xs generalizing b with
  | nil => exact .refl _
  | cons x xs ih =>
      rw [List.foldlM_cons, List.foldlM_cons]
      exact (h b x).bind ih

/-- A result of the refining program is one of the other program. -/
theorem Refines.ok {x y : EStateM ε σ α} (h : Refines fail x y) {s s' : σ}
    {a : α} (hx : x.run s = .ok a s') : y.run s = .ok a s' := by
  rcases h s with heq | ⟨e, s₁, -, herr⟩
  · rw [← heq, hx]
  · rw [hx] at herr
    cases herr

/-- Where the refining program does not fail, the two do the same. -/
theorem Refines.eq {x y : EStateM ε σ α} (h : Refines fail x y) {s : σ}
    (hx : ∀ e s', x.run s = .error e s' → ¬ fail e) : y.run s = x.run s := by
  rcases h s with heq | ⟨e, s₁, hfail, herr⟩
  · exact heq.symm
  · exact absurd hfail (hx e s₁ herr)

end MicRs.Refine
