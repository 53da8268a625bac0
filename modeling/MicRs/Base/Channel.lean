import Mathlib.Data.List.Infix
import Mathlib.Logic.Relation
import Mathlib.Order.Monotone.Basic

/-!
# A stream forwarded into a bounded channel

A task takes one item after the other off a stream and sends each into a channel
of bounded capacity; it waits while the channel is full, and ends with the
stream or once the receiving end is gone. The receiver takes items off the
channel, with a time limit for each. Source, task and receiver move in any
order (`Step`).

In every order nothing is lost, doubled or reordered on the way, and the channel
is only reported closed to a receiver that has everything (`Sound`). What the
receiver has seen (`receptions`) is any list of items and timeouts, followed by
closed channels only (`reachable_iff`), and once the source falls silent every
fair order of the other steps delivers everything (`FairSchedule.delivers`).
-/

namespace MicRs.Channel

variable {α : Type*}

/-- What one receive with a time limit ends with. -/
inductive Reception (α : Type*)
  | value (v : α)
  | timeout
  | disconnected

/-- The items among receptions. -/
def values (rs : List (Reception α)) : List α :=
  rs.filterMap fun r =>
    match r with
    | .value v => some v
    | _ => none

@[simp] theorem values_append_value (rs : List (Reception α)) (v : α) :
    values (rs ++ [.value v]) = values rs ++ [v] := by
  simp [values]

@[simp] theorem values_append_timeout (rs : List (Reception α)) :
    values (rs ++ [.timeout]) = values rs := by
  simp [values]

@[simp] theorem values_append_disconnected (rs : List (Reception α)) :
    values (rs ++ [.disconnected]) = values rs := by
  simp [values]

structure Relay (α : Type*) where
  /-- Everything the source has yielded so far. -/
  emitted : List α
  /-- What the task has not taken off the stream yet. -/
  stream : List α
  /-- Whether the source has ended. -/
  finished : Bool
  /-- What the task is sending. -/
  hand : Option α
  /-- Whether the task still runs. -/
  sending : Bool
  queue : List α
  /-- Whether there still is a receiver. -/
  receiving : Bool
  receptions : List (Reception α)

def Relay.start : Relay α where
  emitted := []
  stream := []
  finished := false
  hand := none
  sending := true
  queue := []
  receiving := true
  receptions := []

/-! ## Steps -/

variable (capacity : ℕ)

/-- A step that takes an item one station further. -/
inductive Move : Relay α → Relay α → Prop
  | pull {s : Relay α} {v : α} {rest : List α} :
      s.sending = true → s.hand = none → s.stream = v :: rest →
      Move s { s with hand := some v, stream := rest }
  | push {s : Relay α} {v : α} :
      s.hand = some v → s.receiving = true → s.queue.length < capacity →
      Move s { s with hand := none, queue := s.queue ++ [v] }
  | take {s : Relay α} {v : α} {rest : List α} :
      s.receiving = true → s.queue = v :: rest →
      Move s { s with
        queue := rest, receptions := s.receptions ++ [.value v] }

/-- A step of the source, the task or the receiver. -/
inductive Step : Relay α → Relay α → Prop
  | move {s t : Relay α} : Move capacity s t → Step s t
  | emit {s : Relay α} (v : α) : s.finished = false →
      Step s { s with emitted := s.emitted ++ [v], stream := s.stream ++ [v] }
  | finish {s : Relay α} : Step s { s with finished := true }
  /-- The task ends with the stream. -/
  | hangUp {s : Relay α} : s.hand = none → s.stream = [] →
      s.finished = true → Step s { s with sending := false }
  /-- The task ends because nobody receives. -/
  | refuse {s : Relay α} {v : α} : s.hand = some v → s.receiving = false →
      Step s { s with hand := none, sending := false }
  | timeOut {s : Relay α} : s.receiving = true → s.queue = [] →
      s.sending = true →
      Step s { s with receptions := s.receptions ++ [.timeout] }
  | disconnect {s : Relay α} : s.receiving = true → s.queue = [] →
      s.sending = false →
      Step s { s with receptions := s.receptions ++ [.disconnected] }
  /-- The receiver goes, and what is in the channel with it. -/
  | drop {s : Relay α} : Step s { s with receiving := false, queue := [] }

/-- The states that some order of steps leads to. -/
def Reachable (s : Relay α) : Prop :=
  Relation.ReflTransGen (Step capacity) .start s

variable {capacity} {s t : Relay α}

theorem Reachable.step (h : Reachable capacity s) (hstep : Step capacity s t) :
    Reachable capacity t :=
  Relation.ReflTransGen.tail h hstep

/-! ## Safety -/

variable (capacity) in
/-- What holds in every order of steps. -/
structure Sound (s : Relay α) : Prop where
  /-- Nothing is lost, doubled or reordered. -/
  conserved : s.receiving = true →
    values s.receptions ++ s.queue ++ s.hand.toList ++ s.stream = s.emitted
  isPrefix : values s.receptions <+: s.emitted
  bounded : s.queue.length ≤ capacity
  /-- A task that has ended holds nothing back. -/
  stopped : s.sending = false → s.hand = none ∧
    (s.receiving = true → s.finished = true ∧ s.stream = [])
  /-- A channel reported closed has delivered everything. -/
  closed : .disconnected ∈ s.receptions → s.sending = false ∧
    s.finished = true ∧ s.queue = [] ∧ values s.receptions = s.emitted

theorem Sound.start : Sound capacity (.start : Relay α) := by
  constructor <;> simp [Relay.start, values]

/-- Where everything is on its way, the receiver has a beginning of it. -/
theorem delivered_of_conserved
    (h : values s.receptions ++ s.queue ++ s.hand.toList ++ s.stream =
      s.emitted) : values s.receptions <+: s.emitted := by
  rw [← h, List.append_assoc, List.append_assoc]
  exact List.prefix_append _ _

theorem Sound.sending_of_hand (h : Sound capacity s) {v : α}
    (hhand : s.hand = some v) : s.sending = true := by
  rcases hsending : s.sending with _ | _
  · rw [(h.stopped hsending).1] at hhand
    cases hhand
  · rfl

/-- A channel with an item in it is not reported closed. -/
theorem Sound.open_of_queue (h : Sound capacity s) {v : α} {rest : List α}
    (hqueue : s.queue = v :: rest) : .disconnected ∉ s.receptions := by
  intro hclosed
  rw [(h.closed hclosed).2.2.1] at hqueue
  cases hqueue

/-- Nor is one whose task runs. -/
theorem Sound.open_of_sending (h : Sound capacity s)
    (hsending : s.sending = true) : .disconnected ∉ s.receptions := by
  intro hclosed
  rw [(h.closed hclosed).1] at hsending
  cases hsending

theorem Sound.move (h : Sound capacity s) (hmove : Move capacity s t) :
    Sound capacity t := by
  cases hmove with
  | pull hsending hhand hstream =>
      have hall := h.conserved
      have hopen := h.open_of_sending hsending
      rw [hhand, hstream] at hall
      constructor
      case conserved => simpa using hall
      case isPrefix => exact h.isPrefix
      case bounded => exact h.bounded
      case stopped => simp [hsending]
      case closed => exact fun hclosed => absurd hclosed hopen
  | push hhand hreceiving hroom =>
      have hsending := h.sending_of_hand hhand
      have hall := h.conserved hreceiving
      have hopen := h.open_of_sending hsending
      rw [hhand] at hall
      constructor
      case conserved => simpa using fun _ => hall
      case isPrefix => exact h.isPrefix
      case bounded => simpa using Nat.succ_le_of_lt hroom
      case stopped => simp [hsending]
      case closed => exact fun hclosed => absurd hclosed hopen
  | @take v rest hreceiving hqueue =>
      have hall := h.conserved hreceiving
      have hroom := h.bounded
      have hopen := h.open_of_queue hqueue
      rw [hqueue] at hall hroom
      have htaken : values (s.receptions ++ [.value v]) ++ rest ++
          s.hand.toList ++ s.stream = s.emitted := by simpa using hall
      constructor
      case conserved => exact fun _ => htaken
      case isPrefix => exact delivered_of_conserved htaken
      case bounded => exact Nat.le_of_succ_le hroom
      case stopped => exact h.stopped
      case closed => simp [hopen]

theorem Sound.step (h : Sound capacity s) (hstep : Step capacity s t) :
    Sound capacity t := by
  cases hstep with
  | move hmove => exact h.move hmove
  | emit v hgoing =>
      constructor
      case conserved =>
        intro hreceiving
        rw [← h.conserved hreceiving]
        simp
      case isPrefix => exact h.isPrefix.trans (List.prefix_append _ _)
      case bounded => exact h.bounded
      case stopped =>
        intro hsending
        refine ⟨(h.stopped hsending).1, fun hreceiving => ?_⟩
        rw [((h.stopped hsending).2 hreceiving).1] at hgoing
        cases hgoing
      case closed =>
        intro hclosed
        rw [(h.closed hclosed).2.1] at hgoing
        cases hgoing
  | finish =>
      exact ⟨h.conserved, h.isPrefix, h.bounded,
        fun hsending => ⟨(h.stopped hsending).1,
          fun hreceiving => ⟨rfl, ((h.stopped hsending).2 hreceiving).2⟩⟩,
        fun hclosed => ⟨(h.closed hclosed).1, rfl, (h.closed hclosed).2.2⟩⟩
  | hangUp hhand hstream hfinished =>
      exact ⟨h.conserved, h.isPrefix, h.bounded,
        fun _ => ⟨hhand, fun _ => ⟨hfinished, hstream⟩⟩,
        fun hclosed => ⟨rfl, (h.closed hclosed).2⟩⟩
  | refuse hhand hgone =>
      have hopen := h.open_of_sending (h.sending_of_hand hhand)
      constructor
      case conserved => simp [hgone]
      case isPrefix => exact h.isPrefix
      case bounded => exact h.bounded
      case stopped => simp [hgone]
      case closed => exact fun hclosed => absurd hclosed hopen
  | timeOut hreceiving hqueue hsending =>
      have hopen := h.open_of_sending hsending
      constructor
      case conserved => simpa using h.conserved
      case isPrefix => simpa using h.isPrefix
      case bounded => exact h.bounded
      case stopped => exact h.stopped
      case closed => simp [hopen]
  | disconnect hreceiving hqueue hsending =>
      obtain ⟨hhand, hrest⟩ := h.stopped hsending
      obtain ⟨hfinished, hstream⟩ := hrest hreceiving
      have hall := h.conserved hreceiving
      rw [hqueue, hhand, hstream] at hall
      constructor
      case conserved => simpa using h.conserved
      case isPrefix => simpa using h.isPrefix
      case bounded => exact h.bounded
      case stopped => exact h.stopped
      case closed => simpa [hsending, hfinished, hqueue] using hall
  | drop =>
      constructor
      case conserved => simp
      case isPrefix => exact h.isPrefix
      case bounded => exact Nat.zero_le _
      case stopped => simpa using fun hsending => (h.stopped hsending).1
      case closed =>
        intro hclosed
        obtain ⟨hsending, hfinished, -, hall⟩ := h.closed hclosed
        exact ⟨hsending, hfinished, rfl, hall⟩

/-- **Every order of steps is sound.** -/
theorem Reachable.sound (h : Reachable capacity s) : Sound capacity s := by
  induction h with
  | refl => exact .start
  | tail _ hstep ih => exact ih.step hstep

/-! ## What a receiver sees -/

/-- Items and timeouts, and closed channels only once the first is met. -/
def ClosesOnce (rs : List (Reception α)) : Prop :=
  ∃ before k, .disconnected ∉ before ∧
    rs = before ++ List.replicate k .disconnected

theorem closesOnce_of_open {rs : List (Reception α)}
    (h : .disconnected ∉ rs) : ClosesOnce rs :=
  ⟨rs, 0, h, (List.append_nil _).symm⟩

theorem ClosesOnce.cons {rs : List (Reception α)} (h : ClosesOnce rs)
    {r : Reception α} (hr : .disconnected ≠ r) : ClosesOnce (r :: rs) := by
  obtain ⟨before, k, hopen, rfl⟩ := h
  refine ⟨r :: before, k, ?_, rfl⟩
  rw [List.mem_cons, not_or]
  exact ⟨hr, hopen⟩

theorem ClosesOnce.disconnect {rs : List (Reception α)} (h : ClosesOnce rs) :
    ClosesOnce (rs ++ [.disconnected]) := by
  obtain ⟨before, k, hopen, rfl⟩ := h
  exact ⟨before, k + 1, hopen, by
    rw [List.append_assoc, ← List.replicate_succ']⟩

theorem Reachable.closesOnce (h : Reachable capacity s) :
    ClosesOnce s.receptions := by
  induction h with
  | refl => exact closesOnce_of_open List.not_mem_nil
  | tail hs hstep ih =>
      have hsound := Reachable.sound hs
      -- Only a receive adds to what was seen.
      cases hstep with
      | move hmove =>
          cases hmove with
          | pull => exact ih
          | push => exact ih
          | take _ hqueue =>
              have hopen := hsound.open_of_queue hqueue
              exact closesOnce_of_open (by simpa using hopen)
      | timeOut _ _ hsending =>
          have hopen := hsound.open_of_sending hsending
          exact closesOnce_of_open (by simpa using hopen)
      | disconnect => exact ih.disconnect
      | emit => exact ih
      | finish => exact ih
      | hangUp => exact ih
      | refuse => exact ih
      | drop => exact ih

/-- Nothing is on its way, and the receiver has seen `rs`. -/
def Relay.idle (rs : List (Reception α)) : Relay α :=
  { Relay.start with emitted := values rs, receptions := rs }

/-- An item on its own passes the whole way. -/
theorem Reachable.value {rs : List (Reception α)} (hcapacity : 0 < capacity)
    (h : Reachable capacity (.idle rs)) (v : α) :
    Reachable capacity (.idle (rs ++ [.value v])) := by
  have hemit := h.step (.emit v rfl)
  have hpull := hemit.step (.move (.pull rfl rfl rfl))
  have hpush := hpull.step (.move (.push rfl rfl hcapacity))
  have htake := hpush.step (.move (.take rfl rfl))
  simpa [Relay.idle, Relay.start] using htake

theorem reachable_idle (hcapacity : 0 < capacity) {rs : List (Reception α)}
    (h : .disconnected ∉ rs) : Reachable capacity (.idle rs) := by
  induction rs using List.reverseRecOn with
  | nil => exact .refl
  | append_singleton rs r ih =>
      rw [List.mem_append, not_or] at h
      have hidle := ih h.1
      rcases r with v | _ | _
      · exact hidle.value hcapacity v
      · have htimeOut := hidle.step (.timeOut rfl rfl rfl)
        simpa [Relay.idle] using htimeOut
      · simp at h

/-- **What a receiver can see**: any items and any timeouts, in any order, and
then closed channels. -/
theorem reachable_iff (hcapacity : 0 < capacity) (rs : List (Reception α)) :
    (∃ s, Reachable capacity s ∧ s.receptions = rs) ↔ ClosesOnce rs := by
  constructor
  · rintro ⟨s, hs, rfl⟩
    exact hs.closesOnce
  · rintro ⟨before, k, hopen, rfl⟩
    have hfinish := (reachable_idle hcapacity hopen).step .finish
    have hhangUp := hfinish.step (.hangUp rfl rfl rfl)
    have hclosed : ∀ k, ∃ s, Reachable capacity s ∧ s.receiving = true ∧
        s.queue = [] ∧ s.sending = false ∧
        s.receptions = before ++ List.replicate k .disconnected := by
      intro k
      induction k with
      | zero => exact ⟨_, hhangUp, rfl, rfl, rfl, (List.append_nil _).symm⟩
      | succ k ih =>
          obtain ⟨s, hs, hreceiving, hqueue, hsending, hseen⟩ := ih
          refine ⟨_, hs.step (.disconnect hreceiving hqueue hsending), hreceiving,
            hqueue, hsending, ?_⟩
          rw [hseen, List.append_assoc, ← List.replicate_succ']
    obtain ⟨s, hs, -, -, -, hseen⟩ := hclosed k
    exact ⟨s, hs, hseen⟩

/-! ## Progress -/

/-- How many moves the items on their way have left. -/
def Relay.distance (s : Relay α) : ℕ :=
  3 * s.stream.length + 2 * s.hand.toList.length + s.queue.length

theorem Move.distance (h : Move capacity s t) :
    t.distance + 1 = s.distance := by
  cases h with
  | pull _ hhand hstream =>
      simp only [Relay.distance, hhand, hstream, Option.toList_some,
        Option.toList_none, List.length_cons, List.length_nil]
      omega
  | push hhand _ _ =>
      simp only [Relay.distance, hhand, Option.toList_some, Option.toList_none,
        List.length_append, List.length_cons, List.length_nil]
      omega
  | take _ hqueue =>
      simp only [Relay.distance, hqueue, List.length_cons]
      omega

/-- **There is no deadlock**: an item on its way can be moved. -/
theorem Sound.exists_move (h : Sound capacity s) (hcapacity : 0 < capacity)
    (hreceiving : s.receiving = true) (hleft : s.distance ≠ 0) :
    ∃ t, Move capacity s t := by
  rcases hqueue : s.queue with _ | ⟨v, rest⟩
  · rcases hhand : s.hand with _ | v
    · rcases hstream : s.stream with _ | ⟨v, rest⟩
      · simp [Relay.distance, hqueue, hhand, hstream] at hleft
      · rcases hsending : s.sending with _ | _
        · rw [((h.stopped hsending).2 hreceiving).2] at hstream
          cases hstream
        · exact ⟨_, .pull hsending hhand hstream⟩
    · exact ⟨_, .push hhand hreceiving (by rw [hqueue]; exact hcapacity)⟩
  · exact ⟨_, .take hreceiving hqueue⟩

/-- An order of steps in which the source is silent and the receiver stays, and
in which a move that is possible is not put off forever. -/
structure FairSchedule (capacity : ℕ) (f : ℕ → Relay α) : Prop where
  step : ∀ n, Step capacity (f n) (f (n + 1))
  silent : ∀ n, (f (n + 1)).emitted = (f n).emitted
  receiving : ∀ n, (f n).receiving = true
  fair : ∀ n, (∃ t, Move capacity (f n) t) →
    ∃ m, n ≤ m ∧ Move capacity (f m) (f (m + 1))

variable {f : ℕ → Relay α}

theorem FairSchedule.reachable (hf : FairSchedule capacity f)
    (h : Reachable capacity (f 0)) (n : ℕ) : Reachable capacity (f n) := by
  induction n with
  | zero => exact h
  | succ n ih => exact ih.step (hf.step n)

theorem FairSchedule.emitted (hf : FairSchedule capacity f) (n : ℕ) :
    (f n).emitted = (f 0).emitted := by
  induction n with
  | zero => rfl
  | succ n ih => exact (hf.silent n).trans ih

/-- No step takes an item back. -/
theorem FairSchedule.distance_succ_le (hf : FairSchedule capacity f) (n : ℕ) :
    (f (n + 1)).distance ≤ (f n).distance := by
  have hstep := hf.step n
  have hsilent := hf.silent n
  have hstays := hf.receiving (n + 1)
  have hreceiving := hf.receiving n
  generalize f (n + 1) = t at hstep hsilent hstays ⊢
  cases hstep with
  | move hmove =>
      have hless := hmove.distance
      omega
  | emit v => simp at hsilent
  | finish => exact Nat.le_refl _
  | hangUp => exact Nat.le_refl _
  | refuse _ hgone =>
      rw [hreceiving] at hgone
      cases hgone
  | timeOut => exact Nat.le_refl _
  | disconnect => exact Nat.le_refl _
  | drop => cases hstays

theorem FairSchedule.distance_antitone (hf : FairSchedule capacity f) :
    Antitone fun n => (f n).distance :=
  antitone_nat_of_succ_le hf.distance_succ_le

/-- **In every fair order everything is delivered**, and stays so. -/
theorem FairSchedule.delivers (hf : FairSchedule capacity f)
    (hcapacity : 0 < capacity) (h : Reachable capacity (f 0)) :
    ∃ n, ∀ m, n ≤ m → values (f m).receptions = (f 0).emitted := by
  -- While something is on its way, a later move takes it further.
  have harrives : ∀ d n, (f n).distance = d → ∃ m, (f m).distance = 0 := by
    intro d
    induction d using Nat.strong_induction_on with
    | _ d ih =>
        intro n hd
        by_cases hleft : (f n).distance = 0
        · exact ⟨n, hleft⟩
        · obtain ⟨m, hm, hmove⟩ := hf.fair n ((hf.reachable h n).sound.exists_move
            hcapacity (hf.receiving n) hleft)
          have hless := hmove.distance
          have hle : (f m).distance ≤ (f n).distance := hf.distance_antitone hm
          exact ih _ (by omega) (m + 1) rfl
  obtain ⟨n, hn⟩ := harrives _ 0 rfl
  refine ⟨n, fun m hm => ?_⟩
  have hnone : (f m).distance = 0 := by
    have hle : (f m).distance ≤ (f n).distance := hf.distance_antitone hm
    omega
  have hall := (hf.reachable h m).sound.conserved (hf.receiving m)
  rw [Relay.distance] at hnone
  have hstream : (f m).stream = [] := List.eq_nil_of_length_eq_zero (by omega)
  have hhand : (f m).hand.toList = [] :=
    List.eq_nil_of_length_eq_zero (by omega)
  have hqueue : (f m).queue = [] := List.eq_nil_of_length_eq_zero (by omega)
  rw [hstream, hhand, hqueue, hf.emitted m] at hall
  simpa using hall

end MicRs.Channel
