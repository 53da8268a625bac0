import Mathlib.Data.List.Basic

/-!
# What a program leaves alone

A program with state and errors keeps a part of its state if that part is the
same in whatever state the program ends, with a value or with an error
(`Keeps`). It ignores a change of the state if it does the same before the
change and after it (`Ignores`). Both are closed under sequencing, and a program
that does not touch the state at all (`Stateless`) has both. Where a program
leads (`Moves`) follows from where its parts lead, also when its state is
renewed at its end (`renewed`, `renewedIf`).
-/

namespace MicRs.StateFrame

variable {ε σ γ α β : Type}

/-- The state a program ends in, with a value or with an error. -/
def finalState : EStateM.Result ε σ α → σ
  | .ok _ s => s
  | .error _ s => s

/-- `x` leaves the part `f` of the state alone, also where it fails. -/
def Keeps (f : σ → γ) (x : EStateM ε σ α) : Prop :=
  ∀ s, f (finalState (x.run s)) = f s

variable {f : σ → γ}

theorem Keeps.pure (a : α) : Keeps f (pure a : EStateM ε σ α) :=
  fun _ => rfl

theorem Keeps.throw (e : ε) : Keeps f (throw e : EStateM ε σ α) :=
  fun _ => rfl

theorem Keeps.get : Keeps f (get : EStateM ε σ σ) :=
  fun _ => rfl

theorem Keeps.modify {g : σ → σ} (h : ∀ s, f (g s) = f s) :
    Keeps f (modify g : EStateM ε σ PUnit) :=
  h

theorem Keeps.bind {x : EStateM ε σ α} {g : α → EStateM ε σ β}
    (hx : Keeps f x) (hg : ∀ a, Keeps f (g a)) : Keeps f (x >>= g) := by
  intro s
  have hfirst := hx s
  rw [EStateM.run_bind]
  rcases hrun : x.run s with ⟨a, s₁⟩ | ⟨e, s₁⟩
  · rw [hrun] at hfirst
    exact (hg a s₁).trans hfirst
  · rw [hrun] at hfirst
    exact hfirst

theorem Keeps.ok {x : EStateM ε σ α} (h : Keeps f x) {s s' : σ} {a : α}
    (hx : x.run s = .ok a s') : f s' = f s := by
  have hs := h s
  rw [hx] at hs
  exact hs

theorem Keeps.error {x : EStateM ε σ α} (h : Keeps f x) {s s' : σ} {e : ε}
    (hx : x.run s = .error e s') : f s' = f s := by
  have hs := h s
  rw [hx] at hs
  exact hs

/-- What the second part of a sequence keeps is as the first part left it. -/
theorem Keeps.after_bind {g : α → EStateM ε σ β} (hg : ∀ a, Keeps f (g a))
    (x : EStateM ε σ α) (s : σ) :
    f (finalState ((x >>= g).run s)) = f (finalState (x.run s)) := by
  rw [EStateM.run_bind]
  rcases x.run s with ⟨a, s₁⟩ | ⟨e, s₁⟩
  · exact hg a s₁
  · rfl

/-- **Where a sequence fails**: in its first part or, behind it, in the
second. -/
theorem run_bind_error {x : EStateM ε σ α} {g : α → EStateM ε σ β} {s s' : σ}
    {e : ε} (h : (x >>= g).run s = .error e s') :
    x.run s = .error e s' ∨
      ∃ a s₁, x.run s = .ok a s₁ ∧ (g a).run s₁ = .error e s' := by
  rw [EStateM.run_bind] at h
  rcases hrun : x.run s with ⟨a, s₁⟩ | ⟨e₁, s₁⟩
  · rw [hrun] at h
    exact Or.inr ⟨a, s₁, rfl, h⟩
  · rw [hrun] at h
    cases h
    exact Or.inl rfl

/-- When a sequence returns. -/
theorem run_bind_ok_iff {x : EStateM ε σ α} {g : α → EStateM ε σ β} {s s' : σ}
    {b : β} : (x >>= g).run s = .ok b s' ↔
      ∃ a s₁, x.run s = .ok a s₁ ∧ (g a).run s₁ = .ok b s' := by
  rw [EStateM.run_bind]
  rcases x.run s with ⟨a, s₁⟩ | ⟨e, s₁⟩
  · simp
  · simp

theorem run_bind_of_ok {x : EStateM ε σ α} {g : α → EStateM ε σ β} {s s' : σ}
    {a : α} (h : x.run s = .ok a s') : (x >>= g).run s = (g a).run s' := by
  rw [EStateM.run_bind, h]

theorem run_bind_of_error {x : EStateM ε σ α} {g : α → EStateM ε σ β}
    {s s' : σ} {e : ε} (h : x.run s = .error e s') :
    (x >>= g).run s = .error e s' := by
  rw [EStateM.run_bind, h]

/-- A loop that returns went through one state after the other. -/
theorem forM_ok_states {f : β → EStateM ε σ PUnit} {bs : List β} {s s' : σ}
    {u : PUnit} (h : (forM bs f).run s = .ok u s') :
    ∃ states : ℕ → σ, states 0 = s ∧ states bs.length = s' ∧
      ∀ i b, bs[i]? = some b →
        (f b).run (states i) = .ok ⟨⟩ (states (i + 1)) := by
  induction bs generalizing s with
  | nil =>
      cases h
      exact ⟨fun _ => s', rfl, rfl, fun i b hb => by simp at hb⟩
  | cons b bs ih =>
      rw [List.forM_cons, run_bind_ok_iff] at h
      obtain ⟨_, s₁, hfirst, hrest⟩ := h
      obtain ⟨states, hstart, hend, hsteps⟩ := ih hrest
      refine ⟨fun | 0 => s | i + 1 => states i, rfl, hend, ?_⟩
      rintro (_ | i) a ha
      · cases ha
        show (f b).run s = .ok ⟨⟩ (states 0)
        rw [hstart]
        exact hfirst
      · exact hsteps i a ha

/-! ## Where a program leads -/

/-- From `s`, `x` ends in a state that `R` relates to it, also where it
fails. -/
def Moves (R : σ → σ → Prop) (x : EStateM ε σ α) (s : σ) : Prop :=
  R s (finalState (x.run s))

section Moves

variable {R : σ → σ → Prop}

theorem Moves.pure (hrefl : ∀ s, R s s) (a : α) (s : σ) :
    Moves R (pure a : EStateM ε σ α) s :=
  hrefl s

theorem Moves.throw (hrefl : ∀ s, R s s) (e : ε) (s : σ) :
    Moves R (throw e : EStateM ε σ α) s :=
  hrefl s

theorem Moves.ok {x : EStateM ε σ α} {s s' : σ} {a : α} (h : Moves R x s)
    (hx : x.run s = .ok a s') : R s s' := by
  rw [Moves, hx] at h
  exact h

theorem Moves.error {x : EStateM ε σ α} {s s' : σ} {e : ε} (h : Moves R x s)
    (hx : x.run s = .error e s') : R s s' := by
  rw [Moves, hx] at h
  exact h

/-- The second part counts from the states that the first one returns in. -/
theorem Moves.bind (htrans : ∀ s t u, R s t → R t u → R s u)
    {x : EStateM ε σ α} {g : α → EStateM ε σ β} {s : σ} (hx : Moves R x s)
    (hg : ∀ a s', x.run s = .ok a s' → Moves R (g a) s') :
    Moves R (x >>= g) s := by
  rw [Moves] at hx ⊢
  rw [EStateM.run_bind]
  rcases hrun : x.run s with ⟨a, s₁⟩ | ⟨e, s₁⟩
  · rw [hrun] at hx
    exact htrans _ _ _ hx (hg a s₁ hrun)
  · rw [hrun] at hx
    exact hx

theorem Moves.forM (hrefl : ∀ s, R s s)
    (htrans : ∀ s t u, R s t → R t u → R s u) {f : β → EStateM ε σ PUnit}
    (hf : ∀ b s, Moves R (f b) s) (bs : List β) (s : σ) :
    Moves R (forM bs f) s := by
  induction bs generalizing s with
  | nil => exact hrefl s
  | cons b bs ih =>
      rw [List.forM_cons]
      exact (hf b s).bind htrans fun _ s' _ => ih s'

end Moves

/-! ## Changes that a program does not see -/

/-- A result with its state changed by `g`. -/
def mapState (g : σ → σ) : EStateM.Result ε σ α → EStateM.Result ε σ α
  | .ok a s => .ok a (g s)
  | .error e s => .error e (g s)

/-- `x` does the same whether its state is changed by `g` before it or after
it. -/
def Ignores (g : σ → σ) (x : EStateM ε σ α) : Prop :=
  ∀ s, x.run (g s) = mapState g (x.run s)

variable {g : σ → σ}

theorem Ignores.pure (a : α) : Ignores g (pure a : EStateM ε σ α) :=
  fun _ => rfl

theorem Ignores.throw (e : ε) : Ignores g (throw e : EStateM ε σ α) :=
  fun _ => rfl

theorem Ignores.modify {k : σ → σ} (h : ∀ s, k (g s) = g (k s)) :
    Ignores g (modify k : EStateM ε σ PUnit) := by
  intro s
  exact congrArg (EStateM.Result.ok PUnit.unit) (h s)

theorem Ignores.bind {x : EStateM ε σ α} {k : α → EStateM ε σ β}
    (hx : Ignores g x) (hk : ∀ a, Ignores g (k a)) : Ignores g (x >>= k) := by
  intro s
  rw [EStateM.run_bind, EStateM.run_bind, hx s]
  rcases x.run s with ⟨a, s₁⟩ | ⟨e, s₁⟩
  · exact hk a s₁
  · rfl

/-! ## Renewing the state -/

/-- `x`, and the state is renewed however it ends. -/
def renewed (g : σ → σ) (x : EStateM ε σ α) : EStateM ε σ α :=
  fun s => mapState g (x.run s)

/-- `x`, and the state is renewed where it ends with a fatal error. -/
def renewedIf (fatal : ε → Prop) [DecidablePred fatal] (g : σ → σ)
    (x : EStateM ε σ α) : EStateM ε σ α :=
  fun s =>
    match x.run s with
    | .ok a s' => .ok a s'
    | .error e s' => .error e (if fatal e then g s' else s')

section Renewing

variable {R : σ → σ → Prop} {x : EStateM ε σ α} {s : σ}

theorem Moves.renewed (htrans : ∀ s t u, R s t → R t u → R s u)
    (hg : ∀ s, R s (g s)) (h : Moves R x s) : Moves R (renewed g x) s := by
  have hrun : (StateFrame.renewed g x).run s = mapState g (x.run s) := rfl
  rw [Moves] at h ⊢
  rw [hrun]
  rcases hx : x.run s with ⟨a, s'⟩ | ⟨e, s'⟩ <;> rw [hx] at h
  · exact htrans _ _ _ h (hg s')
  · exact htrans _ _ _ h (hg s')

theorem Moves.renewedIf {fatal : ε → Prop} [DecidablePred fatal]
    (htrans : ∀ s t u, R s t → R t u → R s u) (hg : ∀ s, R s (g s))
    (h : Moves R x s) : Moves R (renewedIf fatal g x) s := by
  rw [Moves] at h ⊢
  simp only [StateFrame.renewedIf, EStateM.run] at h ⊢
  rcases hx : x s with ⟨a, s'⟩ | ⟨e, s'⟩ <;> rw [hx] at h
  · exact h
  · by_cases hfatal : fatal e
    · simp only [if_pos hfatal]
      exact htrans _ _ _ h (hg s')
    · simp only [if_neg hfatal]
      exact h

end Renewing

/-! ## Programs without state -/

/-- `x` neither looks at the state nor changes it. -/
def Stateless (x : EStateM ε σ α) : Prop :=
  ∃ r : Except ε α, ∀ s, x.run s =
    match r with
    | .ok a => .ok a s
    | .error e => .error e s

theorem Stateless.pure (a : α) : Stateless (pure a : EStateM ε σ α) :=
  ⟨.ok a, fun _ => rfl⟩

theorem Stateless.throw (e : ε) : Stateless (throw e : EStateM ε σ α) :=
  ⟨.error e, fun _ => rfl⟩

theorem Stateless.bind {x : EStateM ε σ α} {k : α → EStateM ε σ β}
    (hx : Stateless x) (hk : ∀ a, Stateless (k a)) : Stateless (x >>= k) := by
  obtain ⟨_ | a, hx⟩ := hx
  · exact ⟨.error _, fun s => by rw [EStateM.run_bind, hx s]⟩
  · obtain ⟨r, hr⟩ := hk a
    exact ⟨r, fun s => by rw [EStateM.run_bind, hx s]; exact hr s⟩

theorem Stateless.keeps {x : EStateM ε σ α} (h : Stateless x) :
    Keeps f x := by
  obtain ⟨_ | a, h⟩ := h
  · exact fun s => by rw [h s]; rfl
  · exact fun s => by rw [h s]; rfl

theorem Stateless.ignores {x : EStateM ε σ α} (h : Stateless x) :
    Ignores g x := by
  obtain ⟨_ | a, h⟩ := h
  · exact fun s => by rw [h s, h (g s)]; rfl
  · exact fun s => by rw [h s, h (g s)]; rfl

end MicRs.StateFrame
