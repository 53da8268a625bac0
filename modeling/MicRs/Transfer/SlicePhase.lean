import MicRs.Transfer.HeaderPhase

/-!
# The slice loop of a download

The second loop goes through the slices of 1A08 and 1A12 messages until a 1A0A
message arrives. It is a batched loop, so all that matters of the messages is
the list of slices they deliver (`deliveredSlices`) and how they end
(`sliceClosing`). Going through a slice either fits the `u32` arithmetic, and
is then the same pure update in every build (`Transfer.accept`), or it panics
in a build with overflow checks.
-/

namespace MicRs

open MessageLoop

/-! ## Messages as batches of slices -/

/-- What ends the slice loop. -/
inductive SliceClosing
  | complete
  | silence
deriving DecidableEq, Repr

/-- The slices a notification delivers; a 1A0A message ends the loop. -/
def classifyMessage (data : List UInt8) : Batch AudioSlice SliceClosing :=
  if data.length < 7 ∨ byteAt data 5 ≠ cmdTypeFile then .items []
  else if byteAt data 6 = cmdFileSlice ∨ byteAt data 6 = cmdFileSliceSuppl then
    .items (audioSlicesOf data)
  else if byteAt data 6 = cmdFileComplete then .close .complete
  else .items []

def classifyDelivery : Delivery → Batch AudioSlice SliceClosing
  | .silence => .close .silence
  | .notification data => classifyMessage data

/-- All slices that arrive before the completion or a silence, in order of
arrival. -/
def deliveredSlices : List Delivery → List AudioSlice :=
  delivered classifyDelivery

/-- How the slice loop ends; `none` is a channel with nothing more to give. -/
def sliceClosing : List Delivery → Option SliceClosing :=
  closing classifyDelivery

theorem deliveredSlices_cons_items {d : Delivery} {xs : List AudioSlice}
    (ds : List Delivery) (h : classifyDelivery d = .items xs) :
    deliveredSlices (d :: ds) = xs ++ deliveredSlices ds := by
  simp only [deliveredSlices, delivered, h]

theorem sliceClosing_cons_items {d : Delivery} {xs : List AudioSlice}
    (ds : List Delivery) (h : classifyDelivery d = .items xs) :
    sliceClosing (d :: ds) = sliceClosing ds := by
  simp only [sliceClosing, closing, h]

theorem deliveredSlices_cons_close {d : Delivery} {k : SliceClosing}
    (ds : List Delivery) (h : classifyDelivery d = .close k) :
    deliveredSlices (d :: ds) = [] := by
  simp only [deliveredSlices, delivered, h]

theorem sliceClosing_cons_close {d : Delivery} {k : SliceClosing}
    (ds : List Delivery) (h : classifyDelivery d = .close k) :
    sliceClosing (d :: ds) = some k := by
  simp only [sliceClosing, closing, h]

/-! ## One slice -/

variable (C : Ciphers)

/-- The frame a slice decrypts to, with the counter wrapped to 32 bits. -/
def frameOf (fileHeader : FileHeader) (fileKey : Vector UInt8 32)
    (slice : AudioSlice) : List UInt8 :=
  aes256Ctr C fileKey
    (chunkIv fileHeader.nonce (slice.sequenceNumber * blocksPerPacket))
    slice.encryptedChunk

/-- The transfer after a slice, in wrapping arithmetic. -/
def Transfer.accept (fileHeader : FileHeader) (fileKey : Vector UInt8 32)
    (st : Transfer) (slice : AudioSlice) : Transfer where
  rawFrames := st.rawFrames ++ [frameOf C fileHeader fileKey slice]
  bytesReceived :=
    st.bytesReceived + UInt32.ofNat slice.encryptedChunk.length
  lastSeq := slice.sequenceNumber

/-- The log after a slice, in wrapping arithmetic. -/
def Log.accept (fileId : UInt32) (fileHeader : FileHeader) (st : Transfer)
    (log : Log) (slice : AudioSlice) : Log where
  reports := log.reports ++ [{
    fileId
    bytesReceived :=
      st.bytesReceived + UInt32.ofNat slice.encryptedChunk.length
    totalBytes := fileHeader.size
    sequence := slice.sequenceNumber }]
  warnings :=
    if slice.sequenceNumber > st.lastSeq + 1 ∧ st.lastSeq > 0 then
      log.warnings ++ [⟨st.lastSeq + 1, slice.sequenceNumber⟩]
    else log.warnings

/-- The three `u32` computations of a round yield their exact values. -/
structure Transfer.Fits (st : Transfer) (slice : AudioSlice) : Prop where
  expected : st.lastSeq.toNat + 1 < 2 ^ 32
  counter : slice.sequenceNumber.toNat * 10 < 2 ^ 32
  total : st.bytesReceived.toNat +
    (UInt32.ofNat slice.encryptedChunk.length).toNat < 2 ^ 32

variable (profile : Profile) (fileId : UInt32) (fileHeader : FileHeader)
  (fileKey : Vector UInt8 32)

/-- A round that fits, or any round of a build without overflow checks, is the
pure update. -/
theorem acceptSlice_run {st : Transfer} {slice : AudioSlice} (log : Log)
    (h : profile = .release ∨ st.Fits slice) :
    (acceptSlice C profile fileId fileHeader fileKey st slice).run log =
      .ok (st.accept C fileHeader fileKey slice)
        (log.accept fileId fileHeader st slice) := by
  have hexp : addU32 profile st.lastSeq 1 = .ok (st.lastSeq + 1) := by
    rcases h with rfl | h
    · rfl
    · exact arith_of_fits profile _ h.expected
  have hctr : mulU32 profile slice.sequenceNumber blocksPerPacket =
      .ok (slice.sequenceNumber * blocksPerPacket) := by
    rcases h with rfl | h
    · rfl
    · exact arith_of_fits profile _ h.counter
  have htot : addU32 profile st.bytesReceived
      (UInt32.ofNat slice.encryptedChunk.length) =
      .ok (st.bytesReceived + UInt32.ofNat slice.encryptedChunk.length) := by
    rcases h with rfl | h
    · rfl
    · exact arith_of_fits profile _ h.total
  have hdec : decryptChunk C profile fileKey fileHeader.nonce
      slice.sequenceNumber slice.encryptedChunk =
      .ok (frameOf C fileHeader fileKey slice) := by
    rw [decryptChunk, hctr]
    rfl
  have hlen : (frameOf C fileHeader fileKey slice).length =
      slice.encryptedChunk.length := length_aes256Ctr C _ _ _
  by_cases hgap : slice.sequenceNumber > st.lastSeq + 1 ∧ st.lastSeq > 0 <;>
    simp [acceptSliceWith, quiet, hexp, hdec, hlen, htot, hgap, Transfer.accept,
      Log.accept]

/-- A round that does not fit panics in a build with overflow checks. It has
reported nothing, and has warned of a gap unless the sum in the condition was
what overflowed. -/
theorem acceptSlice_panic {st : Transfer} {slice : AudioSlice} (log : Log)
    (h : ¬ st.Fits slice) :
    ∃ log', (acceptSlice C .dev fileId fileHeader fileKey st slice).run log =
        .error (.panic .overflow) log' ∧
      log'.reports = log.reports ∧
      (st.lastSeq.toNat + 1 < 2 ^ 32 →
        log'.warnings = (log.accept fileId fileHeader st slice).warnings) := by
  -- The first of the three computations that does not fit ends the round.
  by_cases hexp : st.lastSeq.toNat + 1 < 2 ^ 32
  · have hadd : addU32 .dev st.lastSeq 1 = .ok (st.lastSeq + 1) :=
      arith_of_fits .dev _ hexp
    by_cases hctr : slice.sequenceNumber.toNat * 10 < 2 ^ 32
    · have htot : ¬ st.bytesReceived.toNat +
          (UInt32.ofNat slice.encryptedChunk.length).toNat < 2 ^ 32 :=
        fun htot => h ⟨hexp, hctr, htot⟩
      have hsum : addU32 .dev st.bytesReceived
          (UInt32.ofNat slice.encryptedChunk.length) = .error .overflow :=
        arith_of_not_fits _ htot
      have hdec := decryptChunk_of_fits C .dev fileKey fileHeader.nonce
        slice.encryptedChunk hctr
      by_cases hgap : slice.sequenceNumber > st.lastSeq + 1 ∧ st.lastSeq > 0 <;>
        simp [acceptSliceWith, quiet, hadd, hdec, hsum, hgap, Log.accept]
    · have hmul : mulU32 .dev slice.sequenceNumber blocksPerPacket =
          .error .overflow := arith_of_not_fits _ hctr
      have hdec : decryptChunk C .dev fileKey fileHeader.nonce
          slice.sequenceNumber slice.encryptedChunk = .error .overflow := by
        rw [decryptChunk, hmul]
        rfl
      by_cases hgap : slice.sequenceNumber > st.lastSeq + 1 ∧ st.lastSeq > 0 <;>
        simp [acceptSliceWith, quiet, hadd, hdec, hgap, Log.accept]
  · have hadd : addU32 .dev st.lastSeq 1 = .error .overflow :=
      arith_of_not_fits _ hexp
    exact ⟨log, by simp [acceptSliceWith, quiet, hadd], rfl,
      fun hfits => absurd hfits hexp⟩

/-! ## A list of slices -/

/-- Transfer and log after a slice. -/
def acceptPure (s : Transfer × Log) (slice : AudioSlice) : Transfer × Log :=
  (s.1.accept C fileHeader fileKey slice, s.2.accept fileId fileHeader s.1 slice)

/-- Transfer and log after a list of slices. -/
def acceptAll (s : Transfer × Log) (slices : List AudioSlice) :
    Transfer × Log :=
  slices.foldl (acceptPure C fileId fileHeader fileKey) s

/-- Every round over a list of slices fits. -/
def AllFit : Transfer → List AudioSlice → Prop
  | _, [] => True
  | st, slice :: slices =>
      st.Fits slice ∧ AllFit (st.accept C fileHeader fileKey slice) slices

/-- One round as a step of the item loop. -/
def sliceItem (s : Transfer × Log) (slice : AudioSlice) :
    (Transfer × Log) ⊕ (Fault × Log) :=
  match (acceptSlice C profile fileId fileHeader fileKey s.1 slice).run s.2 with
  | .ok st log => .inl (st, log)
  | .error e log => .inr (e, log)

theorem sliceItem_fits {st : Transfer} {slice : AudioSlice} (log : Log)
    (h : profile = .release ∨ st.Fits slice) :
    sliceItem C profile fileId fileHeader fileKey (st, log) slice =
      .inl (acceptPure C fileId fileHeader fileKey (st, log) slice) := by
  have hround := acceptSlice_run C profile fileId fileHeader fileKey log h
  simp only [sliceItem, hround, acceptPure]

theorem sliceItem_panic {st : Transfer} {slice : AudioSlice} (log : Log)
    (h : ¬ st.Fits slice) :
    ∃ log', sliceItem C .dev fileId fileHeader fileKey (st, log) slice =
        .inr (.panic .overflow, log') ∧
      log'.reports = log.reports ∧
      (st.lastSeq.toNat + 1 < 2 ^ 32 →
        log'.warnings = (log.accept fileId fileHeader st slice).warnings) := by
  obtain ⟨log', hround, hlog⟩ :=
    acceptSlice_panic C fileId fileHeader fileKey log h
  exact ⟨log', by simp only [sliceItem, hround], hlog⟩

theorem foldlM_acceptSlice (slices : List AudioSlice) (st : Transfer)
    (log : Log) :
    (slices.foldlM (acceptSlice C profile fileId fileHeader fileKey) st).run log =
      match (run (sliceItem C profile fileId fileHeader fileKey)
        (st, log) slices).ending with
      | .inl (st', log') => .ok st' log'
      | .inr (e, log') => .error e log' := by
  induction slices generalizing st log with
  | nil => rfl
  | cons slice slices ih =>
      rw [List.foldlM_cons, EStateM.run_bind]
      rcases hacc : (acceptSlice C profile fileId fileHeader fileKey st
          slice).run log with ⟨st', log'⟩ | ⟨e, log'⟩
      · have hstep : sliceItem C profile fileId fileHeader fileKey (st, log)
            slice = .inl (st', log') := by
          simp only [sliceItem, hacc]
        rw [run_cons_continue slices hstep]
        exact ih st' log'
      · have hstep : sliceItem C profile fileId fileHeader fileKey (st, log)
            slice = .inr (e, log') := by
          simp only [sliceItem, hacc]
        rw [run_cons_stop slices hstep]

/-- **Slices that fit, or any slices in a build without overflow checks, run
through as the pure updates.** -/
theorem run_sliceItem (slices : List AudioSlice) (st : Transfer) (log : Log)
    (h : profile = .release ∨ AllFit C fileHeader fileKey st slices) :
    (run (sliceItem C profile fileId fileHeader fileKey) (st, log)
      slices).ending =
      .inl (acceptAll C fileId fileHeader fileKey (st, log) slices) := by
  induction slices generalizing st log with
  | nil => rfl
  | cons slice slices ih =>
      have hstep := sliceItem_fits C profile fileId fileHeader fileKey log
        (h.imp_right And.left)
      rw [run_cons_continue slices hstep]
      exact ih _ _ (h.imp_right And.right)

/-- Slices that do not all fit panic in a build with overflow checks. -/
theorem run_sliceItem_panic (slices : List AudioSlice) (st : Transfer)
    (log : Log) (h : ¬ AllFit C fileHeader fileKey st slices) :
    ∃ log', (run (sliceItem C .dev fileId fileHeader fileKey) (st, log)
      slices).ending = .inr (.panic .overflow, log') := by
  induction slices generalizing st log with
  | nil => exact absurd trivial h
  | cons slice slices ih =>
      by_cases hfit : st.Fits slice
      · have hstep := sliceItem_fits C .dev fileId fileHeader fileKey log
          (Or.inr hfit)
        rw [run_cons_continue slices hstep]
        exact ih _ _ fun hrest => h ⟨hfit, hrest⟩
      · obtain ⟨log', hstep, -⟩ := sliceItem_panic C fileId fileHeader fileKey
          log hfit
        exact ⟨log', by rw [run_cons_stop slices hstep]⟩

/-! ## The whole loop -/

/-- The result of the loop once its closing arrives. -/
def sliceFinish : SliceClosing → Transfer × Log → Except Fault Transfer × Log
  | .complete, s => (.ok s.1, s.2)
  | .silence, s => (.error (.error .timeout), s.2)

/-- **The slice loop is a batched loop.** -/
theorem recvStep_sliceBody :
    recvStep (sliceBody C profile fileId fileHeader fileKey) =
      batchStep classifyDelivery
        (sliceItem C profile fileId fileHeader fileKey)
        (fun f => (.error f.1, f.2)) sliceFinish := by
  funext s d
  -- The cases of the loop body: length, type, and then the three ids.
  rcases d with data | _
  · by_cases hlen : data.length < 7
    · simp [recvStep, sliceBodyWith, parseResponse_eq, hlen, batchStep,
        classifyDelivery, classifyMessage]
    · by_cases htype : byteAt data 5 = cmdTypeFile
      · by_cases hslice : byteAt data 6 = cmdFileSlice ∨
            byteAt data 6 = cmdFileSliceSuppl
        · simp only [recvStep, sliceBodyWith, parseResponse_eq, parseAudioSlices_eq,
            hlen, batchStep, classifyDelivery, classifyMessage,
            ResponseHeader.read, htype, hslice, EStateM.run_bind,
            run_lift_rust_ok, foldlM_acceptSlice, if_false, if_true, ne_eq,
            not_true_eq_false, or_self]
          rcases (run (sliceItem C profile fileId fileHeader fileKey) (s.1, s.2)
            (audioSlicesOf data)).ending with ⟨st, log⟩ | ⟨e, log⟩ <;> rfl
        · by_cases hdone : byteAt data 6 = cmdFileComplete
          · simp [recvStep, sliceBodyWith, parseResponse_eq, hlen, batchStep,
              classifyDelivery, classifyMessage, ResponseHeader.read, htype,
              hdone, sliceFinish, cmdFileComplete, cmdFileSlice,
              cmdFileSliceSuppl]
          · simp [recvStep, sliceBodyWith, parseResponse_eq, hlen, batchStep,
              classifyDelivery, classifyMessage, ResponseHeader.read, htype,
              hslice, hdone]
      · simp [recvStep, sliceBodyWith, parseResponse_eq, hlen, batchStep,
          classifyDelivery, classifyMessage, ResponseHeader.read, htype]
  · rfl

/-- What the slice loop gives for the deliveries it meets. -/
theorem run_sliceBody (ds : List Delivery) (log : Log) :
    (run (recvStep (sliceBody C profile fileId fileHeader fileKey))
      (.start, log) ds).ending =
      match (run (sliceItem C profile fileId fileHeader fileKey) (.start, log)
        (deliveredSlices ds)).ending with
      | .inr f => .inr (.error f.1, f.2)
      | .inl s =>
          match sliceClosing ds with
          | none => .inl s
          | some k => .inr (sliceFinish k s) := by
  rw [recvStep_sliceBody, run_batch]
  unfold deliveredSlices sliceClosing
  rcases (run (sliceItem C profile fileId fileHeader fileKey) (.start, log)
    (delivered classifyDelivery ds)).ending with s | f
  · rcases closing classifyDelivery ds with _ | k <;> rfl
  · rfl

end MicRs
