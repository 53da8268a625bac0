import Mathlib.Logic.Function.Basic
import MicRs.Base.MessageLoop
import MicRs.Model.Error

/-!
# `ble.rs`: the connection, and what the crate touches outside itself

A notification reaches the program when some `recv` takes it from the channel;
whether it was already waiting there or arrived while `recv` waited makes no
difference to anybody. So the receiving side of a connection is the list of
what its coming `recv` calls meet: a notification, or a silence that lasts
until the call times out. The list covers every delay and every leftover of an
earlier operation, and the end of it is a channel that stays silent or is
closed. The outcome of the one write of a command and of the file system calls
belongs to the environment of an operation (`Env`).
-/

namespace MicRs

open MessageLoop

/-! ## The world -/

structure DownloadProgress where
  fileId : UInt32
  bytesReceived : UInt32
  totalBytes : UInt32
  sequence : UInt32
deriving DecidableEq, Repr

/-- `warn!("packet gap: expected {}, got {}")` -/
structure GapWarning where
  expected : UInt32
  got : UInt32
deriving DecidableEq, Repr

/-- What a download tells its observers: the calls of the progress callback
and the warnings. -/
structure Log where
  reports : List DownloadProgress
  warnings : List GapWarning
deriving DecidableEq, Repr

/-- A path as its components; `join` appends one. -/
abbrev Path : Type := List String

def Path.join (dir : Path) (name : String) : Path := dir ++ [name]

abbrev Disk : Type := Path → Option (List UInt8)

/-- What one `recv` call meets. -/
inductive Delivery
  | notification (value : List UInt8)
  | silence
deriving DecidableEq, Repr

structure World where
  /-- What the coming `recv` calls meet. -/
  rx : List Delivery
  /-- Whether the channel is closed once `rx` is used up. -/
  closed : Bool
  /-- Commands written to the device so far. -/
  written : List (List UInt8)
  /-- Notifications taken from the channel so far. -/
  received : List (List UInt8)
  sessionKey : Option (Vector UInt8 32)
  log : Log
  disk : Disk

/-- A fresh connection over which `rx` will arrive. -/
def World.connected (rx : List Delivery) : World where
  rx
  closed := false
  written := []
  received := []
  sessionKey := none
  log := ⟨[], []⟩
  disk := fun _ => none

/-- The outcomes an operation meets outside the channel; `none` is success. -/
structure Env where
  /-- `peripheral.write` -/
  write : Option String
  /-- `File::create` -/
  create : Option String
  /-- `write_all`, which may fail after any number of bytes. -/
  writeAll : Option (ℕ × String)
  /-- `flush`, with the number of bytes on disk when it fails. -/
  flush : Option (ℕ × String)
deriving DecidableEq, Repr

/-- An environment in which everything succeeds. -/
def Env.fine : Env := ⟨none, none, none, none⟩

/-! ## Operations as programs -/

/-- An operation reads and changes the world and ends with a value or a
fault. -/
abbrev RecorderM : Type → Type := EStateM Fault World

/-- The part of an operation that only logs. -/
abbrev LogM : Type → Type := EStateM Fault Log

instance {σ : Type} : MonadLift (Except Panic) (EStateM Fault σ) where
  monadLift x := fun s =>
    match x with
    | .ok a => .ok a s
    | .error p => .error (.panic p) s

instance {σ : Type} : MonadLift (Except RecorderError) (EStateM Fault σ) where
  monadLift x := fun s =>
    match x with
    | .ok a => .ok a s
    | .error e => .error (.error e) s

instance : MonadLift LogM RecorderM where
  monadLift x := fun w =>
    match x.run w.log with
    | .ok a log => .ok a { w with log }
    | .error e log => .error e { w with log }

@[simp] theorem run_throw_fault {σ α : Type} (e : Fault) (s : σ) :
    (throw e : EStateM Fault σ α).run s = .error e s := rfl

@[simp] theorem run_map_result {σ α β : Type} (f : α → β)
    (x : EStateM Fault σ α) (s : σ) :
    (f <$> x).run s =
      match x.run s with
      | .ok a s' => .ok (f a) s'
      | .error e s' => .error e s' := by
  simp only [EStateM.run, Functor.map, EStateM.map]
  cases x s <;> rfl

@[simp] theorem run_lift_rust_ok {σ α : Type} (a : α) (s : σ) :
    (liftM (Except.ok a : Except Panic α) : EStateM Fault σ α).run s =
      .ok a s := rfl

@[simp] theorem run_lift_rust_error {σ α : Type} (p : Panic) (s : σ) :
    (liftM (Except.error p : Except Panic α) : EStateM Fault σ α).run s =
      .error (.panic p) s := rfl

@[simp] theorem run_lift_result_ok {σ α : Type} (a : α) (s : σ) :
    (liftM (Except.ok a : Except RecorderError α) : EStateM Fault σ α).run s =
      .ok a s := rfl

@[simp] theorem run_lift_result_error {σ α : Type} (e : RecorderError) (s : σ) :
    (liftM (Except.error e : Except RecorderError α) : EStateM Fault σ α).run s =
      .error (.error e) s := rfl

theorem run_lift_log {α : Type} (x : LogM α) (w : World) :
    (liftM x : RecorderM α).run w =
      match x.run w.log with
      | .ok a log => .ok a { w with log }
      | .error e log => .error e { w with log } := rfl

/-! ## Sending and receiving -/

/-- `BleConnection::send` -/
def send (env : Env) (data : List UInt8) : RecorderM Unit :=
  match env.write with
  | some e => throw (.error (.ble e))
  | none => modify fun w => { w with written := w.written ++ [data] }

/-- `BleConnection::recv` -/
def recv : RecorderM (List UInt8) := do
  let w ← get
  match w.rx with
  | .notification value :: rest =>
      set { w with rx := rest, received := w.received ++ [value] }
      return value
  | .silence :: rest =>
      set { w with rx := rest }
      throw (.error .timeout)
  | [] => throw (.error (if w.closed then .disconnected else .timeout))

/-- `BleConnection::send_and_recv` -/
def sendAndRecv (env : Env) (data : List UInt8) : RecorderM (List UInt8) := do
  send env data
  recv

theorem recv_run (w : World) :
    recv.run w =
      match w.rx with
      | .notification value :: rest =>
          .ok value { w with rx := rest, received := w.received ++ [value] }
      | .silence :: rest => .error (.error .timeout) { w with rx := rest }
      | [] =>
          .error (.error (if w.closed then .disconnected else .timeout)) w := by
  obtain ⟨rx, closed, written, received, sessionKey, log, disk⟩ := w
  rcases rx with _ | ⟨_ | _, rest⟩ <;> rfl

/-! ## Receive loops -/

/-- `loop { let data = conn.recv(..).await?; body }`, where the body goes on
with a new loop state or breaks with a value. -/
def recvLoop {σ β : Type} (body : σ → List UInt8 → LogM (σ ⊕ β)) :
    (fuel : ℕ) → σ → RecorderM β
  | 0, _ => throw (.panic .diverged)
  | fuel + 1, s => do
      let data ← recv
      match ← body s data with
      | .inl s' => recvLoop body fuel s'
      | .inr b => return b

/-- One round of a receive loop as a step on deliveries. -/
def recvStep {σ β : Type} (body : σ → List UInt8 → LogM (σ ⊕ β))
    (s : σ × Log) : Delivery → (σ × Log) ⊕ (Except Fault β × Log)
  | .silence => .inr (.error (.error .timeout), s.2)
  | .notification data =>
      match (body s.1 data).run s.2 with
      | .ok (.inl s') log => .inl (s', log)
      | .ok (.inr b) log => .inr (.ok b, log)
      | .error e log => .inr (.error e, log)

/-- The notifications among deliveries. -/
def notifications (deliveries : List Delivery) : List (List UInt8) :=
  deliveries.filterMap fun d =>
    match d with
    | .notification value => some value
    | .silence => none

@[simp] theorem notifications_nil : notifications [] = [] := rfl

@[simp] theorem notifications_cons_notification (value : List UInt8)
    (ds : List Delivery) :
    notifications (.notification value :: ds) = value :: notifications ds := rfl

@[simp] theorem notifications_cons_silence (ds : List Delivery) :
    notifications (.silence :: ds) = notifications ds := rfl

/-- The world once the deliveries before `rest` are used up. -/
def World.after (w : World) (rest : List Delivery) (log : Log) : World :=
  { w with
    rx := rest
    received := w.received ++
      notifications (w.rx.take (w.rx.length - rest.length))
    log }

/-- The end of a receive loop, from the outcome of its run over `w.rx`. -/
def World.finish {σ β : Type} (w : World)
    (o : Outcome (σ × Log) Delivery (Except Fault β × Log)) :
    EStateM.Result Fault World β :=
  match o.ending with
  | .inr (.ok b, log) => .ok b (w.after o.rest log)
  | .inr (.error e, log) => .error e (w.after o.rest log)
  | .inl (_, log) =>
      .error (.error (if w.closed then .disconnected else .timeout))
        (w.after o.rest log)

theorem World.after_self (w : World) : w.after w.rx w.log = w := by
  simp [World.after]

/-- Using up one notification and then those before `rest`. -/
theorem World.after_cons {w : World} {value : List UInt8}
    {ds rest : List Delivery} {log log' : Log}
    (hrx : w.rx = .notification value :: ds) (hrest : rest.length ≤ ds.length) :
    ({ w with rx := ds, received := w.received ++ [value], log } : World).after
      rest log' = w.after rest log' := by
  have hcount : ds.length + 1 - rest.length = ds.length - rest.length + 1 := by
    omega
  simp [World.after, hrx, hcount]

/-- Using up one notification. -/
theorem World.after_head {w : World} {value : List UInt8}
    {ds : List Delivery} (log : Log) (hrx : w.rx = .notification value :: ds) :
    w.after ds log =
      { w with rx := ds, received := w.received ++ [value], log } := by
  simp [World.after, hrx]

/-- **A receive loop is its run over the deliveries**, given a round for each
of them and one more. -/
theorem recvLoop_run {σ β : Type} (body : σ → List UInt8 → LogM (σ ⊕ β)) :
    ∀ (ds : List Delivery) (fuel : ℕ) (s : σ) (w : World), w.rx = ds →
    ds.length < fuel →
    (recvLoop body fuel s).run w =
      w.finish (run (recvStep body) (s, w.log) ds) := by
  intro ds
  -- Every round takes one delivery off the channel.
  induction ds with
  | nil =>
      intro fuel s w hrx hfuel
      obtain ⟨fuel, rfl⟩ : ∃ f, fuel = f + 1 := ⟨fuel - 1, by omega⟩
      have hw : w.after [] w.log = w := by rw [← hrx]; exact w.after_self
      simp [recvLoop, recv_run, hrx, World.finish, hw]
  | cons d ds ih =>
      intro fuel s w hrx hfuel
      obtain ⟨fuel, rfl⟩ : ∃ f, fuel = f + 1 := ⟨fuel - 1, by omega⟩
      rw [List.length_cons] at hfuel
      cases d with
      | silence =>
          have hsilence : recvStep body (s, w.log) .silence =
              .inr (.error (.error .timeout), w.log) := rfl
          have hstop := run_cons_stop ds hsilence
          have hcount : ds.length + 1 - ds.length = 1 := by omega
          simp [recvLoop, recv_run, hrx, hstop, World.finish, World.after,
            hcount, notifications]
      | notification value =>
          rw [recvLoop, EStateM.run_bind, recv_run, hrx]
          simp only [EStateM.run_bind, run_lift_log]
          rcases hbody : (body s value).run w.log with ⟨s' | b, log⟩ | ⟨e, log⟩
          · have hstep : recvStep body (s, w.log) (.notification value) =
                .inl (s', log) := by simp [recvStep, hbody]
            have hgo := run_cons_continue ds hstep
            have hrest := length_rest_le (recvStep body) ds (s', log)
            simp only [hgo]
            rw [ih fuel s' _ rfl (by omega)]
            simp only [World.finish, World.after_cons hrx hrest]
          · have hstep : recvStep body (s, w.log) (.notification value) =
                .inr (.ok b, log) := by simp [recvStep, hbody]
            have hstop := run_cons_stop ds hstep
            simp [hstop, World.finish, World.after_head log hrx]
          · have hstep : recvStep body (s, w.log) (.notification value) =
                .inr (.error e, log) := by simp [recvStep, hbody]
            have hstop := run_cons_stop ds hstep
            simp [hstop, World.finish, World.after_head log hrx]

/-- A receive loop with one round for each delivery and one more for the call
that finds none. -/
def recvUntil {σ β : Type} (body : σ → List UInt8 → LogM (σ ⊕ β)) (s : σ) :
    RecorderM β := do
  let w ← get
  recvLoop body (w.rx.length + 1) s

theorem recvUntil_run {σ β : Type} (body : σ → List UInt8 → LogM (σ ⊕ β))
    (s : σ) (w : World) :
    (recvUntil body s).run w =
      w.finish (run (recvStep body) (s, w.log) w.rx) :=
  recvLoop_run body w.rx (w.rx.length + 1) s w rfl (Nat.lt_succ_self _)

end MicRs
