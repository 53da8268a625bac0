import MicRs.Base.StateFrame

/-!
# Programs with a listener

A program that keeps a list of reports in its state, and the same program with
a listener that hears of each report when it is made and may fail. With the
listener the program does the same, unless the listener fails on one of the
reports, and then it ends with that failure (`Observes`). The relation is kept
by sequencing and by loops over a list, so it holds of a program as soon as it
holds where a report is made (`Observes.report`).
-/

namespace MicRs.Observer

open StateFrame

variable {ε φ σ ρ α β : Type} (reports : σ → List ρ) (fault : φ → ε)
  (listen : ρ → Except φ Unit)

/-- `y` is `x` with the listener. -/
def Observes (x y : EStateM ε σ α) : Prop :=
  ∀ s, ∃ new, reports (finalState (x.run s)) = reports s ++ new ∧
    ((forM new listen = .ok () ∧ y.run s = x.run s) ∨
      ∃ e s', forM new listen = .error e ∧ y.run s = .error (fault e) s')

variable {reports fault listen}

/-- A program that reports nothing is its own observer. -/
theorem Observes.refl {x : EStateM ε σ α} (h : Keeps reports x) :
    Observes reports fault listen x x :=
  fun s => ⟨[], by rw [h s, List.append_nil], Or.inl ⟨rfl, rfl⟩⟩

theorem forM_append_of_ok {as bs : List ρ} (h : forM as listen = .ok ()) :
    forM (as ++ bs) listen = forM bs listen := by
  rw [List.forM_append, h]
  rfl

theorem forM_append_of_error {as bs : List ρ} {e : φ}
    (h : forM as listen = .error e) : forM (as ++ bs) listen = .error e := by
  rw [List.forM_append, h]
  rfl

theorem Observes.bind {x y : EStateM ε σ α} {f g : α → EStateM ε σ β}
    (hxy : Observes reports fault listen x y)
    (hfg : ∀ a, Observes reports fault listen (f a) (g a)) :
    Observes reports fault listen (x >>= f) (y >>= g) := by
  intro s
  obtain ⟨new, hnew, hfirst⟩ := hxy s
  rw [EStateM.run_bind, EStateM.run_bind]
  rcases hx : x.run s with ⟨a, s₁⟩ | ⟨e, s₁⟩
  · rw [hx] at hnew
    obtain ⟨more, hmore, hsecond⟩ := hfg a s₁
    refine ⟨new ++ more, ?_, ?_⟩
    · rw [← List.append_assoc, ← hnew]
      exact hmore
    · rcases hfirst with ⟨hheard, hy⟩ | ⟨e, s', hfails, hy⟩
      · rw [forM_append_of_ok hheard, hy, hx]
        exact hsecond
      · exact Or.inr ⟨e, s', forM_append_of_error hfails, by rw [hy]⟩
  · rw [hx] at hnew
    refine ⟨new, hnew, ?_⟩
    rcases hfirst with ⟨hheard, hy⟩ | ⟨e', s', hfails, hy⟩
    · exact Or.inl ⟨hheard, by rw [hy, hx]⟩
    · exact Or.inr ⟨e', s', hfails, by rw [hy]⟩

theorem Observes.foldlM {f g : β → α → EStateM ε σ β}
    (h : ∀ b a, Observes reports fault listen (f b a) (g b a)) (xs : List α)
    (b : β) :
    Observes reports fault listen (xs.foldlM f b) (xs.foldlM g b) := by
  induction xs generalizing b with
  | nil => exact .refl (Keeps.pure b)
  | cons x xs ih =>
      rw [List.foldlM_cons, List.foldlM_cons]
      exact (h b x).bind ih

/-- Where a report is made, and the listener hears of it before the rest. -/
theorem Observes.report {add : σ → σ} {r : ρ} {x : EStateM ε σ Unit}
    {y : EStateM ε σ α} (hadd : ∀ s, reports (add s) = reports s ++ [r])
    (hok : listen r = .ok () → ∀ s, x.run s = .ok () s)
    (herror : ∀ e, listen r = .error e → ∀ s, x.run s = .error (fault e) s)
    (hy : Keeps reports y) :
    Observes reports fault listen (do modify add; y) (do modify add; x; y) := by
  intro s
  have hrun : (modify add : EStateM ε σ PUnit).run s = .ok ⟨⟩ (add s) := rfl
  have hone : forM [r] listen = listen r := by
    rw [List.forM_cons, List.forM_nil]
    rcases listen r with e | u <;> rfl
  refine ⟨[r], ?_, ?_⟩
  · rw [run_bind_of_ok hrun, hy (add s)]
    exact hadd s
  · rw [hone, run_bind_of_ok hrun, run_bind_of_ok hrun]
    rcases hlisten : listen r with e | u
    · exact Or.inr ⟨e, add s, rfl, run_bind_of_error (herror e hlisten _)⟩
    · exact Or.inl ⟨rfl, run_bind_of_ok (hok hlisten _)⟩

/-! ## What it says about one run -/

section Runs

variable {x y : EStateM ε σ α} {s : σ}

/-- **With the reports known**: the listener decides. -/
theorem Observes.run (h : Observes reports fault listen x y) {new : List ρ}
    (hnew : reports (finalState (x.run s)) = reports s ++ new) :
    (forM new listen = .ok () → y.run s = x.run s) ∧
      ∀ e, forM new listen = .error e → ∃ s', y.run s = .error (fault e) s' := by
  obtain ⟨new', hnew', hcases⟩ := h s
  have hsame : new' = new := List.append_cancel_left (hnew'.symm.trans hnew)
  rw [hsame] at hcases
  constructor
  · intro hheard
    rcases hcases with ⟨-, hy⟩ | ⟨e, s', hfails, -⟩
    · exact hy
    · rw [hheard] at hfails
      cases hfails
  · intro e hfails
    rcases hcases with ⟨hheard, -⟩ | ⟨e', s', hfails', hy⟩
    · rw [hheard] at hfails
      cases hfails
    · rw [hfails] at hfails'
      cases hfails'
      exact ⟨s', hy⟩

/-- Where nothing is reported, nothing is heard. -/
theorem Observes.silent (h : Observes reports fault listen x y)
    (hnone : reports (finalState (x.run s)) = reports s) :
    y.run s = x.run s := by
  have hnew : reports (finalState (x.run s)) = reports s ++ [] := by
    rw [hnone, List.append_nil]
  exact (h.run hnew).1 rfl

/-- What returns with the listener returns without it. -/
theorem Observes.ok (h : Observes reports fault listen x y) {s' : σ} {a : α}
    (hy : y.run s = .ok a s') : x.run s = .ok a s' := by
  obtain ⟨-, -, ⟨-, heq⟩ | ⟨e, s₁, -, herror⟩⟩ := h s
  · rw [← heq, hy]
  · rw [hy] at herror
    cases herror

/-- A listener that never fails is not noticed. -/
theorem Observes.calm (h : Observes reports fault listen x y)
    (hcalm : ∀ r, listen r = .ok ()) : y.run s = x.run s := by
  have hheard : ∀ rs : List ρ, forM rs listen = .ok () := by
    intro rs
    induction rs with
    | nil => rfl
    | cons r rs ih =>
        rw [List.forM_cons, hcalm r]
        exact ih
  obtain ⟨new, -, ⟨-, heq⟩ | ⟨e, s₁, hfails, -⟩⟩ := h s
  · exact heq
  · rw [hheard] at hfails
    cases hfails

end Runs

end MicRs.Observer
