import Mathlib.Data.List.Basic

/-!
# Receive loops

A receive loop takes the next message and either goes on with a new state or
stops with a result. `run` is that loop over a finite supply of messages; a run
that uses the supply up is still waiting in some state. The lemmas say how a
run composes (`run_append_of_waiting`, `run_append_of_stopped`), that it reads
no further than where it stops (`run_of_consumed`), that messages the loop
ignores may be inserted anywhere (`run_inserts`), and that a loop whose
messages carry batches of items is the loop over the items (`run_batch`).
-/

namespace MicRs.MessageLoop

variable {σ μ ι ρ ε κ : Type*}

/-- How a run ends, in a waiting state or with a result, and the messages it
has not looked at. -/
structure Outcome (σ μ ρ : Type*) where
  ending : σ ⊕ ρ
  rest : List μ

/-- Feed messages to `step` until it gives a result. -/
def run (step : σ → μ → σ ⊕ ρ) (s : σ) : List μ → Outcome σ μ ρ
  | [] => ⟨.inl s, []⟩
  | m :: ms =>
      match step s m with
      | .inl s' => run step s' ms
      | .inr r => ⟨.inr r, ms⟩

variable {step : σ → μ → σ ⊕ ρ}

@[simp] theorem run_nil (s : σ) : run step s [] = ⟨.inl s, []⟩ := rfl

theorem run_cons_continue {s s' : σ} {m : μ} (ms : List μ)
    (h : step s m = .inl s') : run step s (m :: ms) = run step s' ms := by
  rw [run, h]

theorem run_cons_stop {s : σ} {m : μ} {r : ρ} (ms : List μ)
    (h : step s m = .inr r) : run step s (m :: ms) = ⟨.inr r, ms⟩ := by
  rw [run, h]

/-! ## Composition -/

/-- A run that is waiting after `xs` goes on with whatever follows. -/
theorem run_append_of_waiting {xs : List μ} {s s' : σ} (ys : List μ)
    (h : (run step s xs).ending = .inl s') :
    run step s (xs ++ ys) = run step s' ys := by
  induction xs generalizing s with
  | nil =>
      cases h
      rfl
  | cons m ms ih =>
      rcases hstep : step s m with s₁ | r
      · rw [run_cons_continue ms hstep] at h
        rw [List.cons_append, run_cons_continue _ hstep]
        exact ih h
      · rw [run_cons_stop ms hstep] at h
        cases h

/-- A run that has stopped leaves whatever follows to its rest. -/
theorem run_append_of_stopped {xs : List μ} {s : σ} {r : ρ} (ys : List μ)
    (h : (run step s xs).ending = .inr r) :
    run step s (xs ++ ys) = ⟨.inr r, (run step s xs).rest ++ ys⟩ := by
  induction xs generalizing s with
  | nil => cases h
  | cons m ms ih =>
      rcases hstep : step s m with s' | r'
      · rw [run_cons_continue ms hstep] at h ⊢
        rw [List.cons_append, run_cons_continue _ hstep]
        exact ih h
      · rw [run_cons_stop ms hstep] at h ⊢
        cases h
        rw [List.cons_append, run_cons_stop _ hstep]

variable (step) in
/-- **A run only depends on the messages it consumes**: the rest is a suffix
of the supply, and when the run stops, what it consumed stops it the same way
whatever comes after. -/
theorem run_of_consumed (ms : List μ) (s : σ) :
    ∃ consumed, ms = consumed ++ (run step s ms).rest ∧
      ∀ r, (run step s ms).ending = .inr r →
        ∀ ys, run step s (consumed ++ ys) = ⟨.inr r, ys⟩ := by
  induction ms generalizing s with
  | nil =>
      refine ⟨[], rfl, ?_⟩
      intro r h
      cases h
  | cons m ms ih =>
      rcases hstep : step s m with s' | r
      · obtain ⟨consumed, hms, hrun⟩ := ih s'
        rw [run_cons_continue ms hstep]
        refine ⟨m :: consumed, by rw [List.cons_append, ← hms], ?_⟩
        intro r hr ys
        rw [List.cons_append, run_cons_continue _ hstep]
        exact hrun r hr ys
      · rw [run_cons_stop ms hstep]
        refine ⟨[m], rfl, ?_⟩
        intro r' hr ys
        cases hr
        exact run_cons_stop ys hstep

variable (step) in
theorem length_rest_le (ms : List μ) (s : σ) :
    (run step s ms).rest.length ≤ ms.length := by
  obtain ⟨consumed, hms, -⟩ := run_of_consumed step ms s
  have hlen := congrArg List.length hms
  rw [List.length_append] at hlen
  omega

/-! ## Ignored messages -/

/-- `Inserts p xs ys`: `ys` is `xs` with messages satisfying `p` inserted at
any positions. -/
inductive Inserts (p : μ → Prop) : List μ → List μ → Prop
  | nil : Inserts p [] []
  | keep {xs ys : List μ} (m : μ) :
      Inserts p xs ys → Inserts p (m :: xs) (m :: ys)
  | insert {xs ys : List μ} (m : μ) :
      p m → Inserts p xs ys → Inserts p xs (m :: ys)

/-- **Messages the loop ignores may be inserted anywhere.** -/
theorem run_inserts {p : μ → Prop}
    (hignore : ∀ s m, p m → step s m = .inl s) {xs ys : List μ}
    (h : Inserts p xs ys) : ∀ s : σ,
    (run step s ys).ending = (run step s xs).ending := by
  induction h with
  | nil => exact fun s => rfl
  | keep m _ ih =>
      intro s
      rcases hstep : step s m with s' | r
      · rw [run_cons_continue _ hstep, run_cons_continue _ hstep]
        exact ih s'
      · rw [run_cons_stop _ hstep, run_cons_stop _ hstep]
  | insert m hp _ ih =>
      intro s
      rw [run_cons_continue _ (hignore s m hp)]
      exact ih s

/-! ## Batches -/

/-- A message of a batched loop: some items to go through, or the end. -/
inductive Batch (ι κ : Type*)
  | items (xs : List ι)
  | close (k : κ)

/-- The step of a batched loop: run the item loop over the items of a message.
`fail` turns a failing item into the result, `finish` the closing message. -/
def batchStep (classify : μ → Batch ι κ) (item : σ → ι → σ ⊕ ε) (fail : ε → ρ)
    (finish : κ → σ → ρ) (s : σ) (m : μ) : σ ⊕ ρ :=
  match classify m with
  | .items xs => (run item s xs).ending.map id fail
  | .close k => .inr (finish k s)

/-- The items of all messages before the first closing one. -/
def delivered (classify : μ → Batch ι κ) : List μ → List ι
  | [] => []
  | m :: ms =>
      match classify m with
      | .items xs => xs ++ delivered classify ms
      | .close _ => []

/-- The first closing message. -/
def closing (classify : μ → Batch ι κ) : List μ → Option κ
  | [] => none
  | m :: ms =>
      match classify m with
      | .items _ => closing classify ms
      | .close k => some k

/-- Delivered items come from the messages. -/
theorem forall_delivered {classify : μ → Batch ι κ} {p : ι → Prop}
    (h : ∀ m xs, classify m = .items xs → ∀ x ∈ xs, p x) (ms : List μ) :
    ∀ x ∈ delivered classify ms, p x := by
  intro x hx
  induction ms with
  | nil => cases hx
  | cons m ms ih =>
      rw [delivered] at hx
      rcases hm : classify m with xs | k
      · rw [hm] at hx
        rcases List.mem_append.mp hx with hx | hx
        · exact h m xs hm x hx
        · exact ih hx
      · rw [hm] at hx
        cases hx

/-- **A batched loop is the loop over its items**, in whatever way the items
are packed into messages, followed by the closing message. -/
theorem run_batch {classify : μ → Batch ι κ} {item : σ → ι → σ ⊕ ε}
    {fail : ε → ρ} {finish : κ → σ → ρ} (ms : List μ) (s : σ) :
    (run (batchStep classify item fail finish) s ms).ending =
      match (run item s (delivered classify ms)).ending with
      | .inr e => .inr (fail e)
      | .inl s' =>
          match closing classify ms with
          | none => .inl s'
          | some k => .inr (finish k s') := by
  induction ms generalizing s with
  | nil => rfl
  | cons m ms ih =>
      rcases hm : classify m with xs | k
      · rcases hxs : (run item s xs).ending with s' | e
        · have hstep : batchStep classify item fail finish s m = .inl s' := by
            simp [batchStep, hm, hxs]
          rw [run_cons_continue ms hstep]
          simp only [delivered, closing, hm, run_append_of_waiting _ hxs]
          exact ih s'
        · have hstep : batchStep classify item fail finish s m =
              .inr (fail e) := by
            simp [batchStep, hm, hxs]
          rw [run_cons_stop ms hstep]
          simp only [delivered, hm, run_append_of_stopped _ hxs]
      · rw [run_cons_stop ms (r := finish k s) (by simp only [batchStep, hm])]
        simp only [delivered, closing, hm, run_nil]

/-- A batched loop stops at its closing message and leaves what follows. -/
theorem run_batch_close {classify : μ → Batch ι κ} {item : σ → ι → σ ⊕ ε}
    (fail : ε → ρ) (finish : κ → σ → ρ) {ms : List μ} {s s' : σ} {m : μ} {k : κ}
    (rest : List μ) (hopen : closing classify ms = none)
    (hitems : (run item s (delivered classify ms)).ending = .inl s')
    (hclose : classify m = .close k) :
    run (batchStep classify item fail finish) s (ms ++ m :: rest) =
      ⟨.inr (finish k s'), rest⟩ := by
  have hwaiting : (run (batchStep classify item fail finish) s ms).ending =
      .inl s' := by
    rw [run_batch, hitems, hopen]
  rw [run_append_of_waiting _ hwaiting]
  exact run_cons_stop rest (by simp only [batchStep, hclose])

end MicRs.MessageLoop
