import MicRs.Model.Download

/-!
# The header wait of a download

The first loop of `download_file` stops at the first 1A07 message
(`firstHeader`), whatever that message answers: it either parses, and is the
accepted header, or ends the download (`headerVerdict`). Everything before it
is ignored.
-/

namespace MicRs

open MessageLoop

/-- A notification of the given command type and id. -/
def IsResponse (cmdType cmdId : UInt8) (data : List UInt8) : Prop :=
  7 ≤ data.length ∧ byteAt data 5 = cmdType ∧ byteAt data 6 = cmdId

instance (cmdType cmdId : UInt8) (data : List UInt8) :
    Decidable (IsResponse cmdType cmdId data) :=
  inferInstanceAs (Decidable (_ ∧ _ ∧ _))

/-- The success nibble of a notification. -/
def successNibble (data : List UInt8) : UInt8 := byteAt data 4 &&& 0x0F

/-- A 1A07 message that parses. -/
def IsFileHeader (data : List UInt8) : Prop :=
  97 ≤ data.length ∧ successNibble data = 1

instance (data : List UInt8) : Decidable (IsFileHeader data) :=
  inferInstanceAs (Decidable (_ ∧ _))

/-- The parser accepts such a message and no other. -/
theorem parseFileHeader_of_isFileHeader (data : List UInt8) :
    parseFileHeader data =
      .ok (if IsFileHeader data then some (.read data) else none) :=
  parseFileHeader_eq data

/-- What the header wait makes of the 1A07 message it stops at. -/
def headerVerdict (data : List UInt8) : Except Fault FileHeader :=
  if IsFileHeader data then .ok (.read data)
  else .error (.error (.invalidResponse "failed to parse file header"))

/-- The first 1A07 message to arrive before any silence, and what follows. -/
def firstHeader : List Delivery → Option (List UInt8 × List Delivery)
  | [] => none
  | .silence :: _ => none
  | .notification data :: rest =>
      if IsResponse cmdTypeFile cmdFileHeader data then some (data, rest)
      else firstHeader rest

/-! ## One round -/

theorem headerBody_run_skip {data : List UInt8} (log : Log)
    (h : ¬ IsResponse cmdTypeFile cmdFileHeader data) :
    (headerBody () data).run log = .ok (.inl ()) log := by
  by_cases hlen : data.length < 7
  · simp [headerBody, parseResponse_eq, hlen]
  · have hkind : ¬ (byteAt data 5 = cmdTypeFile ∧
        byteAt data 6 = cmdFileHeader) :=
      fun hk => h ⟨by omega, hk.1, hk.2⟩
    simp [headerBody, parseResponse_eq, hlen, ResponseHeader.read, hkind]

theorem headerBody_run_stop {data : List UInt8} (log : Log)
    (h : IsResponse cmdTypeFile cmdFileHeader data) :
    (headerBody () data).run log =
      match headerVerdict data with
      | .ok hdr => .ok (.inr hdr) log
      | .error e => .error e log := by
  obtain ⟨hlen, htype, hid⟩ := h
  have hshort : ¬ data.length < 7 := by omega
  by_cases hparse : IsFileHeader data <;>
    simp [headerBody, parseResponse_eq, parseFileHeader_of_isFileHeader, hshort,
      ResponseHeader.read, htype, hid, headerVerdict, hparse]

/-- Every delivery but a silence and a 1A07 message is ignored. -/
theorem headerStep_ignores (s : Unit × Log) {d : Delivery}
    (h : ∃ data, d = .notification data ∧
      ¬ IsResponse cmdTypeFile cmdFileHeader data) :
    recvStep headerBody s d = .inl s := by
  obtain ⟨data, rfl, hdata⟩ := h
  simp [recvStep, headerBody_run_skip s.2 hdata]

theorem headerStep_header (s : Unit × Log) {data : List UInt8}
    (h : IsResponse cmdTypeFile cmdFileHeader data) :
    recvStep headerBody s (.notification data) =
      .inr (headerVerdict data, s.2) := by
  simp only [recvStep, headerBody_run_stop s.2 h]
  cases headerVerdict data <;> rfl

/-! ## The whole wait -/

theorem run_headerBody_some {log : Log} {ds : List Delivery}
    {data : List UInt8} {rest : List Delivery}
    (h : firstHeader ds = some (data, rest)) :
    run (recvStep headerBody) ((), log) ds =
      ⟨.inr (headerVerdict data, log), rest⟩ := by
  induction ds with
  | nil => cases h
  | cons d ds ih =>
      cases d with
      | silence => cases h
      | notification d =>
          by_cases hd : IsResponse cmdTypeFile cmdFileHeader d
          · rw [firstHeader, if_pos hd] at h
            cases h
            exact run_cons_stop _ (headerStep_header ((), log) hd)
          · rw [firstHeader, if_neg hd] at h
            rw [run_cons_continue ds
              (headerStep_ignores ((), log) ⟨d, rfl, hd⟩)]
            exact ih h

/-- Without a 1A07 message the wait ends in silence. -/
theorem run_headerBody_none (log : Log) {ds : List Delivery}
    (h : firstHeader ds = none) :
    (run (recvStep headerBody) ((), log) ds).ending = .inl ((), log) ∨
      (run (recvStep headerBody) ((), log) ds).ending =
        .inr (.error (.error .timeout), log) := by
  induction ds with
  | nil => exact Or.inl rfl
  | cons d ds ih =>
      cases d with
      | silence => exact Or.inr rfl
      | notification d =>
          by_cases hd : IsResponse cmdTypeFile cmdFileHeader d
          · rw [firstHeader, if_pos hd] at h
            cases h
          · rw [firstHeader, if_neg hd] at h
            rw [run_cons_continue ds
              (headerStep_ignores ((), log) ⟨d, rfl, hd⟩)]
            exact ih h

/-- **The header a download accepts is the first 1A07 message to arrive**, for
whatever file it is. -/
theorem receiveHeader_ok {w w' : World} {hdr : FileHeader}
    (h : (recvUntil headerBody ()).run w = .ok hdr w') :
    ∃ data rest, firstHeader w.rx = some (data, rest) ∧ IsFileHeader data ∧
      hdr = .read data ∧ w' = w.after rest w.log := by
  rw [recvUntil_run] at h
  rcases hfirst : firstHeader w.rx with _ | ⟨data, rest⟩
  · rcases run_headerBody_none w.log hfirst with hend | hend <;>
      simp [World.finish, hend] at h
  · rw [run_headerBody_some hfirst] at h
    by_cases hparse : IsFileHeader data
    · simp only [World.finish, headerVerdict, if_pos hparse] at h
      cases h
      exact ⟨data, rest, rfl, hparse, rfl, rfl⟩
    · simp [World.finish, headerVerdict, hparse] at h

theorem receiveHeader_of_firstHeader {w : World} {data : List UInt8}
    {rest : List Delivery} (hfirst : firstHeader w.rx = some (data, rest))
    (hparse : IsFileHeader data) :
    (recvUntil headerBody ()).run w =
      .ok (.read data) (w.after rest w.log) := by
  rw [recvUntil_run, run_headerBody_some hfirst]
  simp [World.finish, headerVerdict, hparse]

theorem receiveHeader_none {w : World} (hfirst : firstHeader w.rx = none) :
    ∃ e w', (recvUntil headerBody ()).run w = .error (.error e) w' := by
  rw [recvUntil_run]
  rcases run_headerBody_none w.log hfirst with hend | hend <;>
    simp [World.finish, hend]

theorem receiveHeader_of_malformed {w : World} {data : List UInt8}
    {rest : List Delivery} (hfirst : firstHeader w.rx = some (data, rest))
    (hparse : ¬ IsFileHeader data) :
    ∃ e w', (recvUntil headerBody ()).run w = .error (.error e) w' := by
  rw [recvUntil_run, run_headerBody_some hfirst]
  simp [World.finish, headerVerdict, hparse]

end MicRs
