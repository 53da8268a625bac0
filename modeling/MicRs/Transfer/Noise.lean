import MicRs.Transfer.Samples

/-!
# Unrelated notifications

Notifications that are not for the current phase of a download may be inserted
anywhere (`WithNoise`): the two runs return the same, write the same and report
the same (`downloadFile_withNoise`).
-/

namespace MicRs

open MessageLoop

/-! ## Noise -/

/-- Not for the header wait: any notification but a 1A07 message. -/
def IsHeaderNoise (d : Delivery) : Prop :=
  ∃ data, d = .notification data ∧
    ¬ IsResponse cmdTypeFile cmdFileHeader data

/-- Not for the slice loop: too short for a header, not of type 1A, neither a
slice message nor the completion, or a slice message too short for a slice. -/
def IsSliceNoise (d : Delivery) : Prop :=
  ∃ data, d = .notification data ∧
    (data.length < 7 ∨ byteAt data 5 ≠ cmdTypeFile ∨
      (byteAt data 6 ≠ cmdFileSlice ∧ byteAt data 6 ≠ cmdFileSliceSuppl ∧
        byteAt data 6 ≠ cmdFileComplete) ∨
      ((byteAt data 6 = cmdFileSlice ∨ byteAt data 6 = cmdFileSliceSuppl) ∧
        data.length < 9 + 166))

/-- `WithNoise ds ds'`: `ds'` is `ds` with notifications inserted that are not
for the phase they arrive in. -/
inductive WithNoise : List Delivery → List Delivery → Prop
  | nil : WithNoise [] []
  /-- Inserted before the header. -/
  | insert {ds ds' : List Delivery} {d : Delivery} :
      IsHeaderNoise d → WithNoise ds ds' → WithNoise ds (d :: ds')
  /-- Before the header and in both. -/
  | keep {ds ds' : List Delivery} {data : List UInt8} :
      ¬ IsResponse cmdTypeFile cmdFileHeader data → WithNoise ds ds' →
      WithNoise (.notification data :: ds) (.notification data :: ds')
  | silence {ds ds' : List Delivery} :
      WithNoise ds ds' → WithNoise (.silence :: ds) (.silence :: ds')
  /-- The header, and insertions after it. -/
  | header {ds ds' : List Delivery} {data : List UInt8} :
      IsResponse cmdTypeFile cmdFileHeader data →
      Inserts IsSliceNoise ds ds' →
      WithNoise (.notification data :: ds) (.notification data :: ds')

/-- **Noise does not touch the header wait**: it ends alike, and behind the
header it stops at there is noise for the slice loop only. -/
theorem WithNoise.headerWait {ds ds' : List Delivery} (h : WithNoise ds ds')
    (log : Log) :
    (run (recvStep headerBody) ((), log) ds').ending =
      (run (recvStep headerBody) ((), log) ds).ending ∧
    ∀ {data data' rest rest'}, firstHeader ds = some (data, rest) →
      firstHeader ds' = some (data', rest') →
      Inserts IsSliceNoise rest rest' := by
  induction h with
  | nil => exact ⟨rfl, fun hfirst => by cases hfirst⟩
  | insert hnoise _ ih =>
      obtain ⟨data, rfl, hdata⟩ := id hnoise
      rw [firstHeader, if_neg hdata,
        run_cons_continue _ (headerStep_ignores ((), log) hnoise)]
      exact ih
  | keep hdata _ ih =>
      have hskip := headerStep_ignores ((), log) ⟨_, rfl, hdata⟩
      rw [firstHeader, if_neg hdata, firstHeader, if_neg hdata,
        run_cons_continue _ hskip, run_cons_continue _ hskip]
      exact ih
  | silence _ _ => exact ⟨rfl, fun hfirst => by cases hfirst⟩
  | header hdata hins =>
      have hstop := headerStep_header ((), log) hdata
      rw [run_cons_stop _ hstop, run_cons_stop _ hstop]
      refine ⟨rfl, ?_⟩
      intro _ _ _ _ hfirst hfirst'
      rw [firstHeader, if_pos hdata] at hfirst hfirst'
      cases hfirst
      cases hfirst'
      exact hins

variable (C : Ciphers)

/-- The slice loop ignores noise. -/
theorem sliceStep_ignores {profile : Profile} {fileId : UInt32}
    {hdr : FileHeader} {fileKey : Vector UInt8 32} (s : Transfer × Log)
    (d : Delivery) (h : IsSliceNoise d) :
    recvStep (sliceBody C profile fileId hdr fileKey) s d = .inl s := by
  obtain ⟨data, rfl, hdata⟩ := h
  have hitems : classifyDelivery (.notification data) = .items [] := by
    rw [classifyDelivery, classifyMessage]
    by_cases hother : data.length < 7 ∨ byteAt data 5 ≠ cmdTypeFile
    · rw [if_pos hother]
    · rw [if_neg hother]
      rw [not_or] at hother
      rcases hdata with hlen | htype | ⟨h8, h12, hA⟩ | ⟨hslice, hlen⟩
      · exact absurd hlen hother.1
      · exact absurd htype hother.2
      · rw [if_neg (by simp [h8, h12]), if_neg hA]
      · rw [if_pos hslice, audioSlicesOf_of_short hlen]
  rw [recvStep_sliceBody, batchStep, hitems]
  rfl

theorem send_keeps_rx {env : Env} {data : List UInt8} {w w' : World} {u : Unit}
    (h : (send env data).run w = .ok u w') : w'.rx = w.rx := by
  rcases hwrite : env.write with _ | e
  · rw [send_ok _ w hwrite] at h
    cases h
    rfl
  · simp [send, hwrite] at h

/-! ## Runs that look alike -/

/-- Worlds that agree on everything but the channel. -/
structure World.Agree (w w' : World) : Prop where
  closed : w.closed = w'.closed
  sessionKey : w.sessionKey = w'.sessionKey
  log : w.log = w'.log
  disk : w.disk = w'.disk

/-- Results with the same value or fault, in worlds that agree. -/
inductive Alike {α : Type} : EStateM.Result Fault World α →
    EStateM.Result Fault World α → Prop
  | ok {w w' : World} (a : α) : w.Agree w' → Alike (.ok a w) (.ok a w')
  | error {w w' : World} (e : Fault) :
      w.Agree w' → Alike (.error e w) (.error e w')

/-- Receive loops that end alike give results that are alike. -/
theorem finish_alike {σ β : Type} {w w' : World} (h : w.Agree w')
    {o o' : Outcome (σ × Log) Delivery (Except Fault β × Log)}
    (hend : o'.ending = o.ending) : Alike (w.finish o) (w'.finish o') := by
  have hclosed := h.closed
  simp only [World.finish, hend, hclosed]
  rcases o.ending with ⟨s, log⟩ | ⟨e | b, log⟩
  · exact .error _ ⟨h.closed, h.sessionKey, rfl, h.disk⟩
  · exact .error _ ⟨h.closed, h.sessionKey, rfl, h.disk⟩
  · exact .ok _ ⟨h.closed, h.sessionKey, rfl, h.disk⟩

theorem Alike.bind {α β : Type} {x x' : RecorderM α} {f : α → RecorderM β}
    {w w' : World} (hx : Alike (x.run w) (x'.run w'))
    (hf : ∀ a w₁ w₁', x.run w = .ok a w₁ → x'.run w' = .ok a w₁' →
      w₁.Agree w₁' → Alike ((f a).run w₁) ((f a).run w₁')) :
    Alike ((x >>= f).run w) ((x' >>= f).run w') := by
  rw [EStateM.run_bind, EStateM.run_bind]
  rcases hrun : x.run w with ⟨a, w₁⟩ | ⟨e, w₁⟩ <;>
    rcases hrun' : x'.run w' with ⟨a', w₁'⟩ | ⟨e', w₁'⟩ <;>
    rw [hrun, hrun'] at hx
  · rcases hx with ⟨a, hagree⟩
    exact hf a w₁ w₁' hrun hrun' hagree
  · cases hx
  · cases hx
  · rcases hx with _ | ⟨e, hagree⟩
    exact .error e hagree

theorem World.Agree.put {w w' : World} (h : w.Agree w') (path : Path)
    (content : List UInt8) :
    ({ w with disk := w.disk.put path content } : World).Agree
      { w' with disk := w'.disk.put path content } :=
  ⟨h.closed, h.sessionKey, h.log, by simp only [h.disk]⟩

/-- The file system calls only look at the disk. -/
theorem saveFile_alike {profile : Profile} {env : Env} {fileId : UInt32}
    {outputDir : Path} {frames : List (List UInt8)} {w w' : World}
    (h : w.Agree w') :
    Alike ((saveFile profile env fileId outputDir frames).run w)
      ((saveFile profile env fileId outputDir frames).run w') := by
  rw [saveFile]
  refine Alike.bind ?_ fun bytes w w' _ _ h => Alike.bind ?_
    fun _ w w' _ _ h => Alike.bind ?_ fun _ w w' _ _ h => Alike.bind ?_
      fun _ w w' _ _ h => .ok _ h
  · rcases wrapOggOpus profile frames fileId with p | bytes
    · exact .error _ h
    · exact .ok _ h
  · rcases hcreate : env.create with _ | e <;> simp only [createFile, hcreate]
    · exact .ok _ (h.put _ _)
    · exact .error _ h
  · rcases hwrite : env.writeAll with _ | e <;> simp only [writeAll, hwrite]
    · exact .ok _ (h.put _ _)
    · exact .error _ (h.put _ _)
  · rcases hflush : env.flush with _ | e <;> simp only [flush, hflush]
    · exact .ok _ h
    · exact .error _ (h.put _ _)

/-- Behind the same header, the rest of a download does not see noise. -/
theorem acceptHeader_alike {profile : Profile} {env : Env} {fileId : UInt32}
    {sessionKey : Vector UInt8 32} {outputDir : Path} {hdr : FileHeader}
    {w w' : World} (h : w.Agree w') (hrx : Inserts IsSliceNoise w.rx w'.rx) :
    Alike ((acceptHeader C profile env fileId sessionKey outputDir hdr).run w)
      ((acceptHeader C profile env fileId sessionKey outputDir hdr).run w') := by
  unfold acceptHeader acceptHeaderWith
  rcases FileHeaderCode.ofByte hdr.code with _ | _ | _ | _ | code
  · rcases hkey : decryptFileKey C sessionKey hdr.encryptedKey
        hdr.sessionNonce with e | fileKey
    · simp only [transferFileWith, hkey, EStateM.run_bind, run_lift_result_error]
      exact .error _ h
    · simp only [transferFile_key C hkey]
      refine Alike.bind ?_ fun transfer w w' _ _ h => saveFile_alike h
      rw [recvUntil_run, recvUntil_run, ← h.log]
      exact finish_alike h (run_inserts (sliceStep_ignores C) hrx _)
  · exact .error _ h
  · exact .error _ h
  · exact .ok _ h
  · exact .error _ h

/-- **Unrelated notifications never influence a download**: with noise inserted
it returns the same, and the log and the disk it leaves are the same. -/
theorem downloadFile_withNoise {profile : Profile} {env : Env} {fileId : UInt32}
    {sessionKey : Vector UInt8 32} {outputDir : Path} {w : World}
    {ds' : List Delivery} (h : WithNoise w.rx ds') :
    Alike ((downloadFile C profile env fileId sessionKey outputDir).run w)
      ((downloadFile C profile env fileId sessionKey outputDir).run
        { w with rx := ds' }) := by
  unfold downloadFile downloadFileWith
  refine Alike.bind ?_ fun _ w₁ w₁' hsend hsend' h₁ => ?_
  · rcases hwrite : env.write with _ | e <;> simp only [send, hwrite]
    · exact .ok _ ⟨rfl, rfl, rfl, rfl⟩
    · exact .error _ ⟨rfl, rfl, rfl, rfl⟩
  have hrx := send_keeps_rx hsend
  have hrx' := send_keeps_rx hsend'
  obtain ⟨hend, hrest⟩ := h.headerWait w₁.log
  refine Alike.bind ?_ fun hdr w₂ w₂' hhdr hhdr' h₂ => ?_
  · rw [recvUntil_run, recvUntil_run, ← h₁.log, hrx, hrx']
    exact finish_alike h₁ hend
  · obtain ⟨data, rest, hfirst, -, rfl, rfl⟩ := receiveHeader_ok hhdr
    obtain ⟨data', rest', hfirst', -, -, rfl⟩ := receiveHeader_ok hhdr'
    rw [hrx] at hfirst
    rw [hrx'] at hfirst'
    exact acceptHeader_alike C h₂ (hrest hfirst hfirst')

/-- A stale completion before the header, and the header once more after it. -/
theorem downloadFile_withNoise_stale :
    Alike
      ((downloadFile sampleCiphers .dev .fine 1 zeroKey []).run
        (.connected [.notification (zeroHeader sampleCiphers 1 0),
          .notification completeMessage]))
      ((downloadFile sampleCiphers .dev .fine 1 zeroKey []).run
        (.connected [.notification completeMessage,
          .notification (zeroHeader sampleCiphers 1 0),
          .notification (zeroHeader sampleCiphers 1 0),
          .notification completeMessage])) := by
  have hheader : IsResponse cmdTypeFile cmdFileHeader
      (zeroHeader sampleCiphers 1 0) :=
    (isHonestHeader_zeroHeader sampleCiphers 1).kind
  have hearly : IsHeaderNoise (.notification completeMessage) :=
    ⟨_, rfl, by decide⟩
  have hlate : IsSliceNoise (.notification (zeroHeader sampleCiphers 1 0)) :=
    ⟨_, rfl, by rw [hheader.2.2]; decide⟩
  exact downloadFile_withNoise sampleCiphers (w := .connected _)
    (.insert hearly (.header hheader (.insert _ hlate (.keep _ .nil))))

end MicRs
