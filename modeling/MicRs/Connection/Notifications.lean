import MicRs.Model.Connect

/-!
# From the peripheral to `recv`

Between the notifications of the peripheral and the `recv` calls stand the task
that forwards them and a channel of 256 places. Whatever the order in which the
peripheral, the task and the calls move, the calls get the notifications without
loss, repetition or reordering (`notifications_sound`), all of them once the
peripheral falls silent (`notifications_delivered`), and what they return is what
they return on the list of deliveries that stands for all of this elsewhere
(`recv_refines_iff`).
-/

namespace MicRs

open Channel

/-! ## Safety -/

/-- The notifications that calls of `recv` have returned. -/
def returned (results : List (Except Fault (List UInt8))) :
    List (List UInt8) :=
  results.filterMap Except.toOption

theorem returned_recvResult (rs : List (Reception (List UInt8))) :
    returned (rs.map recvResult) = values rs := by
  rw [returned, values, List.filterMap_map]
  congr 1
  funext r
  rcases r with data | _ | _ <;> rfl

/-- **The notifications arrive as they were sent**, in every order of steps:
what the calls have returned, the channel, the task and the stream hold all of
them, each once; the channel holds at most 256; and a call reports a
disconnection only when the peripheral is done and everything is returned. -/
theorem notifications_sound {s : Notifications}
    (h : Reachable notificationCapacity s) :
    (s.receiving = true → returned (s.receptions.map recvResult) ++ s.queue ++
      s.hand.toList ++ s.stream = s.emitted) ∧
    returned (s.receptions.map recvResult) <+: s.emitted ∧
    s.queue.length ≤ 256 ∧
    (.error (.error .disconnected) ∈ s.receptions.map recvResult →
      s.finished = true ∧
        returned (s.receptions.map recvResult) = s.emitted) := by
  have hsound := h.sound
  rw [returned_recvResult]
  refine ⟨hsound.conserved, hsound.isPrefix, hsound.bounded, ?_⟩
  intro hclosed
  obtain ⟨r, hr, hresult⟩ := List.mem_map.mp hclosed
  rcases r with data | _ | _
  · cases hresult
  · cases hresult
  · obtain ⟨-, hfinished, -, hall⟩ := hsound.closed hr
    exact ⟨hfinished, hall⟩

/-- A notification, a timeout, and the notification after it. -/
theorem notifications_sound_late :
    Reachable notificationCapacity
      (.idle [.value [0x01], .timeout, .value [0x02]] : Notifications) ∧
    ([[0x01], [0x02]] : List (List UInt8)) <+: [[0x01], [0x02]] := by
  have h : Reachable notificationCapacity
      (.idle [.value [0x01], .timeout, .value [0x02]] : Notifications) :=
    reachable_idle (by decide) (by simp)
  exact ⟨h, (notifications_sound h).2.1⟩

/-! ## Progress -/

/-- **Nothing stays on the way**: once the peripheral is silent, every fair
order of the task and the calls comes to a point from where on everything it
has sent is returned. -/
theorem notifications_delivered {f : ℕ → Notifications}
    (hf : FairSchedule notificationCapacity f)
    (h : Reachable notificationCapacity (f 0)) :
    ∃ n, ∀ m, n ≤ m →
      returned ((f m).receptions.map recvResult) = (f 0).emitted := by
  obtain ⟨n, hn⟩ := hf.delivers (by decide) h
  exact ⟨n, fun m hm => (returned_recvResult _).trans (hn m hm)⟩

/-- One notification on its way to a caller that goes on asking. -/
def oneNotification : ℕ → Notifications
  | 0 => { Relay.start with emitted := [[0x01]], stream := [[0x01]] }
  | 1 => { Relay.start with emitted := [[0x01]], hand := some [0x01] }
  | 2 => { Relay.start with emitted := [[0x01]], queue := [[0x01]] }
  | n + 3 => { Relay.start with
      emitted := [[0x01]]
      receptions := .value [0x01] :: List.replicate n .timeout }

theorem fairSchedule_oneNotification :
    FairSchedule notificationCapacity oneNotification where
  step
    | 0 => .move (.pull rfl rfl rfl)
    | 1 => .move (.push rfl rfl (by decide))
    | 2 => .move (.take rfl rfl)
    | n + 3 => by
        have htimeOut : Step notificationCapacity (oneNotification (n + 3)) _ :=
          .timeOut rfl rfl rfl
        simpa [oneNotification, List.replicate_succ'] using htimeOut
  silent
    | 0 => rfl
    | 1 => rfl
    | 2 => rfl
    | _ + 3 => rfl
  receiving
    | 0 => rfl
    | 1 => rfl
    | 2 => rfl
    | _ + 3 => rfl
  fair
    | 0 => fun _ => ⟨0, Nat.le_refl _, .pull rfl rfl rfl⟩
    | 1 => fun _ => ⟨1, Nat.le_refl _, .push rfl rfl (by decide)⟩
    | 2 => fun _ => ⟨2, Nat.le_refl _, .take rfl rfl⟩
    | n + 3 => by
        -- Nothing is on its way any more.
        rintro ⟨t, hmove⟩
        have hless := hmove.distance
        simp [oneNotification, Relay.distance, Relay.start] at hless

theorem notifications_delivered_one : ∃ n, ∀ m, n ≤ m →
    returned ((oneNotification m).receptions.map recvResult) =
      (oneNotification 0).emitted :=
  notifications_delivered fairSchedule_oneNotification
    (Reachable.step .refl (.emit [0x01] rfl))

/-! ## The list of deliveries -/

/-- What stands for a reception in the list of deliveries. -/
def deliveryOf : Reception (List UInt8) → Option Delivery
  | .value data => some (.notification data)
  | .timeout => some .silence
  | .disconnected => none

theorem recvResults_closed (k : ℕ) {w : World} (hrx : w.rx = [])
    (hclosed : w.closed = true) :
    recvResults k w = List.replicate k (.error (.error .disconnected)) := by
  induction k with
  | zero => rfl
  | succ k ih =>
      simp only [recvResults, recv_run, hrx, hclosed, if_true, ih,
        List.replicate_succ]

/-- Receptions in front of a closed channel are returned one by one. -/
theorem recvResults_append {before : List (Reception (List UInt8))} (k : ℕ)
    (hopen : .disconnected ∉ before) {w : World}
    (hrx : w.rx = before.filterMap deliveryOf) (hclosed : w.closed = true) :
    recvResults (before.length + k) w =
      before.map recvResult ++
        List.replicate k (.error (.error .disconnected)) := by
  induction before generalizing w with
  | nil => simpa using recvResults_closed k hrx hclosed
  | cons r before ih =>
      rw [List.mem_cons, not_or] at hopen
      have hcount : (r :: before).length + k = before.length + k + 1 := by
        rw [List.length_cons]
        omega
      rcases r with data | _ | _
      · have hrest := ih hopen.2 (w := { w with
          rx := before.filterMap deliveryOf
          received := w.received ++ [data] }) rfl hclosed
        simp only [hcount, recvResults, recv_run, hrx, deliveryOf,
          List.filterMap_cons, hrest]
        rfl
      · have hrest := ih hopen.2
          (w := { w with rx := before.filterMap deliveryOf }) rfl hclosed
        simp only [hcount, recvResults, recv_run, hrx, deliveryOf,
          List.filterMap_cons, hrest]
        rfl
      · exact absurd rfl hopen.1

/-- What the calls return on a list of deliveries are receptions. -/
theorem closesOnce_recvResults (count : ℕ) (w : World) :
    ∃ rs : List (Reception (List UInt8)), ClosesOnce rs ∧
      recvResults count w = rs.map recvResult := by
  induction count generalizing w with
  | zero => exact ⟨[], closesOnce_of_open List.not_mem_nil, rfl⟩
  | succ count ih =>
      rcases hrx : w.rx with _ | ⟨data | _, rest⟩
      · rcases hclosed : w.closed with _ | _
        · obtain ⟨rs, hrs, hresults⟩ := ih w
          refine ⟨.timeout :: rs, hrs.cons (by simp), ?_⟩
          simp [recvResults, recv_run, hrx, hclosed, hresults, recvResult]
        · refine ⟨List.replicate (count + 1) .disconnected,
            ⟨[], count + 1, List.not_mem_nil, rfl⟩, ?_⟩
          rw [recvResults_closed (count + 1) hrx hclosed, List.map_replicate]
          rfl
      · obtain ⟨rs, hrs, hresults⟩ :=
          ih { w with rx := rest, received := w.received ++ [data] }
        refine ⟨.value data :: rs, hrs.cons (by simp), ?_⟩
        simp [recvResults, recv_run, hrx, hresults, recvResult]
      · obtain ⟨rs, hrs, hresults⟩ := ih { w with rx := rest }
        refine ⟨.timeout :: rs, hrs.cons (by simp), ?_⟩
        simp [recvResults, recv_run, hrx, hresults, recvResult]

/-- **The list of deliveries is all that calls of `recv` can tell of the
channel**: results are those of the calls in some order of steps exactly if
they are those of the calls on some list of deliveries. -/
theorem recv_refines_iff (results : List (Except Fault (List UInt8))) :
    (∃ s : Notifications, Reachable notificationCapacity s ∧
      s.receptions.map recvResult = results) ↔
    ∃ w : World, recvResults results.length w = results := by
  constructor
  · rintro ⟨s, hs, rfl⟩
    obtain ⟨before, k, hopen, hseen⟩ := hs.closesOnce
    refine ⟨{ World.connected (before.filterMap deliveryOf) with
      closed := true }, ?_⟩
    rw [hseen, List.length_map, List.length_append, List.length_replicate,
      recvResults_append k hopen rfl rfl, List.map_append, List.map_replicate]
    rfl
  · rintro ⟨w, hw⟩
    obtain ⟨rs, hrs, hresults⟩ := closesOnce_recvResults results.length w
    obtain ⟨s, hs, rfl⟩ :=
      (reachable_iff (show 0 < notificationCapacity by decide) rs).mpr hrs
    exact ⟨s, hs, hresults.symm.trans hw⟩

end MicRs
