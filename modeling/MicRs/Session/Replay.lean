import MicRs.Model.Builds
import MicRs.Transfer.Samples

/-!
# Replaying what was received

A receive loop that returns took notifications only, and returns the same
wherever it meets these notifications again (`recvUntil_replay`). So a download
can be replayed from the notifications it consumed, in a build without overflow
checks and into any directory (`downloadFile_replay`).
-/

namespace MicRs

open MessageLoop Refine

/-! ## Receive loops -/

theorem run_recvStep_replay {σ β : Type}
    {body : σ → List UInt8 → LogM (σ ⊕ β)} {b : β} {log' : Log}
    {ds : List Delivery} {s : σ × Log}
    (h : (run (recvStep body) s ds).ending = .inr (.ok b, log')) :
    ∃ values : List (List UInt8),
      ds = values.map .notification ++ (run (recvStep body) s ds).rest ∧
      ∀ ys, run (recvStep body) s (values.map .notification ++ ys) =
        ⟨.inr (.ok b, log'), ys⟩ := by
  induction ds generalizing s with
  | nil => cases h
  | cons d ds ih =>
      cases d with
      | silence => cases h
      | notification value =>
          -- A round that goes on and the one that returns both used up a value.
          rcases hstep : recvStep body s (.notification value) with s' | r
          · rw [run_cons_continue ds hstep] at h ⊢
            obtain ⟨values, hds, hrun⟩ := ih h
            refine ⟨value :: values, by
              rw [List.map_cons, List.cons_append, ← hds], ?_⟩
            intro ys
            rw [List.map_cons, List.cons_append, run_cons_continue _ hstep]
            exact hrun ys
          · rw [run_cons_stop ds hstep] at h ⊢
            cases h
            exact ⟨[value], rfl, fun ys => run_cons_stop ys hstep⟩

theorem notifications_map (values : List (List UInt8)) :
    notifications (values.map .notification) = values := by
  induction values with
  | nil => rfl
  | cons value values ih => simp [ih]

/-- Using up notifications. -/
theorem World.after_notifications {w : World} {values : List (List UInt8)}
    {rest : List Delivery} (log : Log)
    (hrx : w.rx = values.map .notification ++ rest) :
    w.after rest log =
      { w with rx := rest, received := w.received ++ values, log } := by
  have hcount : w.rx.length - rest.length =
      (values.map Delivery.notification).length := by
    rw [hrx, List.length_append, Nat.add_sub_cancel]
  have htake : w.rx.take (w.rx.length - rest.length) =
      values.map .notification := by
    rw [hcount, hrx, List.take_left' rfl]
  rw [World.after, htake, notifications_map]

/-- **A receive loop that returns can be replayed** from the notifications it
took, with the same log. -/
theorem recvUntil_replay {σ β : Type} {body : σ → List UInt8 → LogM (σ ⊕ β)}
    {s : σ} {w w' : World} {b : β}
    (h : (recvUntil body s).run w = .ok b w') :
    ∃ values : List (List UInt8), w.rx = values.map .notification ++ w'.rx ∧
      w' = { w with
        rx := w'.rx, received := w.received ++ values, log := w'.log } ∧
      ∀ v ys, v.log = w.log → v.rx = values.map .notification ++ ys →
        (recvUntil body s).run v = .ok b
          { v with rx := ys, received := v.received ++ values, log := w'.log } := by
  rw [recvUntil_run] at h
  rcases hend : (run (recvStep body) (s, w.log) w.rx).ending with
    ⟨s', log⟩ | ⟨e | b', log⟩
  · simp [World.finish, hend] at h
  · simp [World.finish, hend] at h
  · simp only [World.finish, hend, EStateM.Result.ok.injEq] at h
    obtain ⟨rfl, rfl⟩ := h
    obtain ⟨values, hds, hrun⟩ := run_recvStep_replay hend
    refine ⟨values, hds, World.after_notifications log hds, ?_⟩
    intro v ys hlog hrx
    rw [recvUntil_run, hlog, hrx, hrun ys]
    simp only [World.finish, World.after_notifications log hrx]
    rfl

/-! ## Downloads -/

variable (C : Ciphers)

/-- The slice loop and the saving of the frames, replayed. -/
theorem transferFile_replay {profile : Profile} {env : Env} {fileId : UInt32}
    {sessionKey : Vector UInt8 32} {outputDir path : Path} {hdr : FileHeader}
    {w w' : World}
    (h : (transferFile C profile env fileId sessionKey outputDir hdr).run w =
      .ok path w') :
    ∃ values bytes, w'.received = w.received ++ values ∧
      w'.written = w.written ∧ w'.disk path = some bytes ∧
      ∀ v, v.log = w.log → v.rx = values.map .notification → ∃ v',
        (transferFile C .release .fine fileId sessionKey [] hdr).run v =
          .ok (opusPath [] fileId) v' ∧
        v'.disk (opusPath [] fileId) = some bytes := by
  rcases hkey : decryptFileKey C sessionKey hdr.encryptedKey
      hdr.sessionNonce with e | fileKey
  · simp [transferFileWith, hkey] at h
  · rw [transferFile_key C hkey, EStateM.run_bind] at h
    rcases hloop : (recvUntil (sliceBody C profile fileId hdr fileKey)
        .start).run w with ⟨transfer, w₁⟩ | ⟨e, w₁⟩
    · rw [hloop] at h
      obtain ⟨values, -, hw₁, hreplay⟩ := recvUntil_replay hloop
      obtain ⟨bytes, hwrap, rfl, rfl⟩ := saveFile_ok h
      refine ⟨values, bytes, by rw [World.saved_received, hw₁],
        by rw [World.saved_written, hw₁], by simp, ?_⟩
      intro v hlog hrx
      have hloop' := (refines_recvUntil (fun st data =>
        sliceBody_refines C profile fileId hdr fileKey st data) .start).ok
        (hreplay v [] hlog (by rw [hrx, List.append_nil]))
      have hrun : (transferFile C .release .fine fileId sessionKey [] hdr).run v =
          .ok (opusPath [] fileId) (({ v with
            rx := [], received := v.received ++ values, log := w₁.log } :
            World).saved fileId [] bytes) := by
        rw [transferFile_key C hkey, EStateM.run_bind, hloop']
        exact saveFile_fine (wrapOggOpus_release_of_ok hwrap) rfl rfl rfl
      exact ⟨_, hrun, by simp⟩
    · rw [hloop] at h
      cases h

/-- **A download can be replayed** from the notifications it consumed. -/
theorem downloadFile_replay {profile : Profile} {env : Env} {fileId : UInt32}
    {sessionKey : Vector UInt8 32} {outputDir path : Path} {w w' : World}
    {hdr : FileHeader} (haccepted : acceptedHeader env fileId w = some hdr)
    (hcode : hdr.code = 0)
    (h : (downloadFile C profile env fileId sessionKey outputDir).run w =
      .ok path w') :
    ∃ values bytes, w'.received = w.received ++ values ∧
      w'.written = w.written ++ [fileHeaderRequest fileId 0] ∧
      w'.disk path = some bytes ∧
      ∀ v, v.log = w.log → v.rx = values.map .notification → ∃ v',
        (downloadFile C .release .fine fileId sessionKey []).run v =
          .ok (opusPath [] fileId) v' ∧
        v'.disk (opusPath [] fileId) = some bytes := by
  obtain ⟨data, rest, harrives, rfl⟩ := acceptedHeader_eq_some haccepted
  have haccept : ∀ profile env outputDir,
      acceptHeader C profile env fileId sessionKey outputDir (.read data) =
        transferFile C profile env fileId sessionKey outputDir (.read data) := by
    intro profile env outputDir
    simp only [acceptHeaderWith, FileHeaderCode.ofByte, hcode, if_true]
  have hsend := send_ok (fileHeaderRequest fileId 0) w harrives.sent
  have hwait := receiveHeader_of_firstHeader
    (w := { w with written := w.written ++ [fileHeaderRequest fileId 0] })
    harrives.first harrives.parses
  simp only [downloadFileWith, EStateM.run_bind, hsend, hwait, haccept] at h
  obtain ⟨values₁, -, hw₁, hreplay₁⟩ := recvUntil_replay hwait
  obtain ⟨values₂, bytes, hreceived, hwritten, hdisk, hreplay₂⟩ :=
    transferFile_replay C h
  rw [hw₁] at hreceived hwritten
  refine ⟨values₁ ++ values₂, bytes, by rw [hreceived, List.append_assoc],
    hwritten, hdisk, ?_⟩
  intro v hlog hrx
  have hsend' : (send .fine (fileHeaderRequest fileId 0)).run v = _ :=
    send_ok _ v rfl
  have hwait' := hreplay₁ { v with
    written := v.written ++ [fileHeaderRequest fileId 0] } _ hlog
    (hrx.trans List.map_append)
  simp only [downloadFileWith, EStateM.run_bind, hsend', hwait', haccept]
  exact hreplay₂ _ rfl rfl

end MicRs
