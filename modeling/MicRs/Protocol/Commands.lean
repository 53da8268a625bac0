import MicRs.Base.Framing
import MicRs.Model.Protocol

/-!
# Command packets

A packet announces its own length and ends in the sum of its other bytes. The
length has 16 bits: `build_command` cuts it off, so a packet says the truth
about itself exactly if its payload has at most 65,525 bytes
(`buildCommand_consistent_iff`). The payloads of the six commands are short, and
their packets are read back one after the other by the documented wire format
(`readCommands_packets`).
-/

namespace MicRs

open Endian Framing

/-! ## The wire format -/

/-- The length a packet announces. -/
def lengthField (packet : List UInt8) : ℕ := leNat ((packet.drop 7).take 2)

/-- The sum of bytes modulo 256. -/
def byteSum (bytes : List UInt8) : UInt8 :=
  UInt8.ofNat (bytes.map UInt8.toNat).sum

/-- A packet that says the truth about its length, its bytes and its payload. -/
structure SelfConsistent (payload packet : List UInt8) : Prop where
  length : lengthField packet = packet.length
  checksum : packet.getLast? = some (byteSum packet.dropLast)
  payload : (packet.drop 9).take (lengthField packet - 10) = payload

theorem checksum_eq (data : List UInt8) : checksum data = byteSum data := by
  have hfold : ∀ (bytes : List UInt8) (acc : UInt8),
      bytes.foldl (fun acc b => acc + b) acc = acc + byteSum bytes := by
    intro bytes
    induction bytes with
    | nil => exact fun acc => (UInt8.add_zero acc).symm
    | cons b bs ih =>
        intro acc
        rw [List.foldl_cons, ih, UInt8.add_assoc, byteSum, byteSum,
          List.map_cons, List.sum_cons, UInt8.ofNat_add, UInt8.ofNat_toNat]
  rw [checksum, hfold, UInt8.zero_add]

/-! ## Packet building -/

variable (cmdType cmdId : UInt8) (payload : List UInt8)

/-- The nine bytes in front of the payload. -/
def commandFront : List UInt8 :=
  buildHeader cmdType cmdId ++ leBytes 2 (payload.length + 10)

@[simp] theorem length_commandFront :
    (commandFront cmdType cmdId payload).length = 9 := by
  simp [commandFront, buildHeader]

theorem buildCommand_eq : buildCommand cmdType cmdId payload =
    commandFront cmdType cmdId payload ++ payload ++
      [byteSum (commandFront cmdType cmdId payload ++ payload)] := by
  have htotal : bleHeaderSize + 2 + payload.length + 1 = payload.length + 10 := by
    rw [bleHeaderSize]
    omega
  -- Both bytes of the length are taken modulo 256.
  have hlow : UInt8.ofNat ((payload.length + 10) &&& 0xFF) =
      UInt8.ofNat (payload.length + 10) := by
    rw [← UInt8.toNat_inj, UInt8.toNat_ofNat', UInt8.toNat_ofNat',
      Nat.and_two_pow_sub_one_eq_mod _ 8, Nat.mod_mod]
  have hhigh : UInt8.ofNat ((payload.length + 10) >>> 8 &&& 0xFF) =
      UInt8.ofNat ((payload.length + 10) / 256) := by
    rw [← UInt8.toNat_inj, UInt8.toNat_ofNat', UInt8.toNat_ofNat',
      Nat.and_two_pow_sub_one_eq_mod _ 8, Nat.mod_mod,
      Nat.shiftRight_eq_div_pow]
  simp only [buildCommand, htotal, hlow, hhigh, checksum_eq]
  rfl

@[simp] theorem length_buildCommand :
    (buildCommand cmdType cmdId payload).length = payload.length + 10 := by
  simp [buildCommand_eq]
  omega

/-- The length is announced modulo 2^16. -/
theorem lengthField_buildCommand (rest : List UInt8) :
    lengthField (buildCommand cmdType cmdId payload ++ rest) =
      (payload.length + 10) % 65536 := by
  have hfield : ((buildCommand cmdType cmdId payload ++ rest).drop 7).take 2 =
      leBytes 2 (payload.length + 10) := by
    apply field_of_append (buildHeader cmdType cmdId) _
      (payload ++ [byteSum (commandFront cmdType cmdId payload ++ payload)] ++ rest)
    · simp only [buildCommand_eq, commandFront, List.append_assoc]
    · rfl
    · exact length_leBytes 2 _
  rw [lengthField, hfield, leNat_leBytes]
  rfl

theorem drop_buildCommand (rest : List UInt8) :
    (buildCommand cmdType cmdId payload ++ rest).drop 9 =
      payload ++ ([byteSum (commandFront cmdType cmdId payload ++ payload)] ++
        rest) := by
  rw [buildCommand_eq, List.append_assoc, List.append_assoc,
    List.drop_left' (length_commandFront _ _ _)]

theorem getLast_buildCommand :
    (buildCommand cmdType cmdId payload).getLast? =
      some (byteSum (buildCommand cmdType cmdId payload).dropLast) := by
  rw [buildCommand_eq, List.getLast?_concat, List.dropLast_concat]

/-- **A packet is consistent with itself exactly if its length fits** in the
two bytes it has. -/
theorem buildCommand_consistent_iff :
    SelfConsistent payload (buildCommand cmdType cmdId payload) ↔
      payload.length ≤ 65525 := by
  have hfield := lengthField_buildCommand cmdType cmdId payload []
  rw [List.append_nil] at hfield
  constructor
  · intro h
    have hlen := h.length
    rw [hfield, length_buildCommand] at hlen
    omega
  · intro h
    have htrue : (payload.length + 10) % 65536 = payload.length + 10 :=
      Nat.mod_eq_of_lt (by omega)
    rw [htrue] at hfield
    constructor
    case length => rw [hfield, length_buildCommand]
    case checksum => exact getLast_buildCommand cmdType cmdId payload
    case payload =>
      have hdrop := drop_buildCommand cmdType cmdId payload []
      rw [List.append_nil] at hdrop
      rw [hfield, Nat.add_sub_cancel, hdrop, List.take_left]

/-- The shortest payload that is too long: the packet announces no byte at
all. -/
theorem buildCommand_long_inconsistent :
    ¬ SelfConsistent (List.replicate 65526 0)
      (buildCommand cmdTypeFile cmdFileHeader (List.replicate 65526 0)) := by
  intro h
  have hfield := lengthField_buildCommand cmdTypeFile cmdFileHeader
    (List.replicate 65526 0) []
  have hlen := h.length
  rw [List.append_nil, List.length_replicate] at hfield
  rw [hfield, length_buildCommand, List.length_replicate] at hlen
  exact absurd hlen (by decide)

/-! ## Reading packets -/

/-- What a packet says, without its length and its sum. -/
structure Packet where
  cmdType : UInt8
  cmdId : UInt8
  payload : List UInt8
deriving DecidableEq, Repr

/-- Read one packet off the front of a stream: magic, kind, length, payload and
sum as documented. -/
def readPacket (bytes : List UInt8) : Option (Packet × List UInt8) :=
  let size := lengthField bytes
  let packet := bytes.take size
  if 10 ≤ size ∧ size ≤ bytes.length ∧ packet.take 2 = [0x08, 0xEE] ∧
      packet.getLast? = some (byteSum packet.dropLast) then
    some ({
      cmdType := byteAt packet 5
      cmdId := byteAt packet 6
      payload := (packet.drop 9).take (size - 10) }, bytes.drop size)
  else none

/-- **A packet is read back, and what follows it is left.** -/
theorem readPacket_buildCommand (hlen : payload.length ≤ 65525)
    (rest : List UInt8) :
    readPacket (buildCommand cmdType cmdId payload ++ rest) =
      some (⟨cmdType, cmdId, payload⟩, rest) := by
  have hsize : lengthField (buildCommand cmdType cmdId payload ++ rest) =
      (buildCommand cmdType cmdId payload).length := by
    rw [lengthField_buildCommand, length_buildCommand]
    exact Nat.mod_eq_of_lt (by omega)
  have hfits : (buildCommand cmdType cmdId payload).length ≤
      (buildCommand cmdType cmdId payload ++ rest).length := by simp
  have hten : 10 ≤ (buildCommand cmdType cmdId payload).length := by simp
  have hlast := getLast_buildCommand cmdType cmdId payload
  have hdrop := drop_buildCommand cmdType cmdId payload []
  rw [List.append_nil] at hdrop
  have hpayload : ((buildCommand cmdType cmdId payload).drop 9).take
      ((buildCommand cmdType cmdId payload).length - 10) = payload := by
    rw [hdrop, length_buildCommand, Nat.add_sub_cancel, List.take_left]
  simp only [readPacket, hsize, List.take_left, List.drop_left, hpayload]
  rw [if_pos ⟨hten, hfits, rfl, hlast⟩]
  rfl

/-! ## Commands -/

/-- The commands the crate sends, with their parameters. -/
inductive SentCommand
  | fileHeaderRequest (fileId offset : UInt32)
  | deleteFile (fileId : UInt32)
  | fileListRequest (page : UInt16)
  | ecdhPubkey (pubkey : Vector UInt8 65)
  | openBtTransport
  | closeBtTransport
deriving DecidableEq, Repr

/-- The packet of a command, as its builder makes it. -/
def SentCommand.packet : SentCommand → List UInt8
  | .fileHeaderRequest fileId offset => MicRs.fileHeaderRequest fileId offset
  | .deleteFile fileId => deleteFileCommand fileId
  | .fileListRequest page => MicRs.fileListRequest page
  | .ecdhPubkey pubkey => ecdhPubkeyCommand pubkey.toList
  | .openBtTransport => MicRs.openBtTransport
  | .closeBtTransport => MicRs.closeBtTransport

/-- What a packet of the crate asks for: the kind decides about the payload. -/
def Packet.command (p : Packet) : Option SentCommand :=
  if p.cmdType = 0x1A ∧ p.cmdId = 0x07 ∧ p.payload.length = 9 then
    some (.fileHeaderRequest (u32FromLeBytes (arrayAt 4 p.payload 4))
      (u32FromLeBytes (arrayAt 4 p.payload 0)))
  else if p.cmdType = 0x1A ∧ p.cmdId = 0x10 ∧ p.payload.length = 4 then
    some (.deleteFile (u32FromLeBytes (arrayAt 4 p.payload 0)))
  else if p.cmdType = 0x1A ∧ p.cmdId = 0x0E ∧ p.payload.length = 2 then
    some (.fileListRequest (u16FromLeBytes (arrayAt 2 p.payload 0)))
  else if p.cmdType = 0x2E ∧ p.cmdId = 0x01 ∧ p.payload.length = 65 then
    some (.ecdhPubkey (arrayAt 65 p.payload 0))
  else if p.cmdType = 0x1A ∧ p.cmdId = 0x0F ∧ p.payload = [0x00] then
    some .openBtTransport
  else if p.cmdType = 0x1A ∧ p.cmdId = 0x11 ∧ p.payload = [0x00] then
    some .closeBtTransport
  else none

/-- Read one command off the front of a stream. -/
def readCommand (bytes : List UInt8) : Option (SentCommand × List UInt8) := do
  let (p, rest) ← readPacket bytes
  let command ← p.command
  return (command, rest)

/-- Read a stream as commands, all of it. -/
def readCommands (bytes : List UInt8) : Option (List SentCommand) :=
  readAll readCommand bytes

/-- The packet of a command is built from what it says. -/
theorem SentCommand.packet_eq (command : SentCommand) : ∃ p : Packet,
    command.packet = buildCommand p.cmdType p.cmdId p.payload ∧
      p.payload.length ≤ 65525 ∧ p.command = some command := by
  -- In each case the fields are read first, and the payload is then forgotten.
  cases command with
  | fileHeaderRequest fileId offset =>
      refine ⟨⟨cmdTypeFile, cmdFileHeader, u32ToLeBytes offset ++
        u32ToLeBytes fileId ++ [0x00]⟩, rfl, by simp, ?_⟩
      have hlen : (u32ToLeBytes offset ++ u32ToLeBytes fileId ++
          [0x00]).length = 9 := by simp
      have hoffset : u32FromLeBytes (arrayAt 4 (u32ToLeBytes offset ++
          u32ToLeBytes fileId ++ [0x00]) 0) = offset := by
        apply u32FromLeBytes_toLeBytes
        rw [toList_arrayAt (by simp), List.drop_zero, List.append_assoc]
        exact List.take_left' (length_u32ToLeBytes offset)
      have hfileId : u32FromLeBytes (arrayAt 4 (u32ToLeBytes offset ++
          u32ToLeBytes fileId ++ [0x00]) 4) = fileId := by
        apply u32FromLeBytes_toLeBytes
        rw [toList_arrayAt (by simp)]
        exact field_of_append (u32ToLeBytes offset) (u32ToLeBytes fileId) [0x00]
          (List.append_assoc _ _ _) (length_u32ToLeBytes offset)
          (length_u32ToLeBytes fileId)
      generalize u32ToLeBytes offset ++ u32ToLeBytes fileId ++ [0x00] = payload
        at hlen hoffset hfileId ⊢
      simp [Packet.command, cmdTypeFile, cmdFileHeader, hlen, hoffset, hfileId]
  | deleteFile fileId =>
      refine ⟨⟨cmdTypeFile, cmdDeleteFile, u32ToLeBytes fileId⟩, rfl, by simp, ?_⟩
      have hlen := length_u32ToLeBytes fileId
      have hfileId : u32FromLeBytes (arrayAt 4 (u32ToLeBytes fileId) 0) =
          fileId := by
        apply u32FromLeBytes_toLeBytes
        rw [toList_arrayAt hlen.ge, List.drop_zero]
        exact List.take_of_length_le hlen.le
      generalize u32ToLeBytes fileId = payload at hlen hfileId ⊢
      simp [Packet.command, cmdTypeFile, cmdDeleteFile, hlen, hfileId]
  | fileListRequest page =>
      refine ⟨⟨cmdTypeFile, cmdGetAllFiles, u16ToLeBytes page⟩, rfl, by simp, ?_⟩
      have hlen := length_u16ToLeBytes page
      have hpage : u16FromLeBytes (arrayAt 2 (u16ToLeBytes page) 0) = page := by
        apply u16FromLeBytes_toLeBytes
        rw [toList_arrayAt hlen.ge, List.drop_zero]
        exact List.take_of_length_le hlen.le
      generalize u16ToLeBytes page = payload at hlen hpage ⊢
      simp [Packet.command, cmdTypeFile, cmdGetAllFiles, hlen, hpage]
  | ecdhPubkey pubkey =>
      refine ⟨⟨cmdTypeEncrypt, cmdEncryptKeyExchange, pubkey.toList⟩, rfl, by simp,
        ?_⟩
      have hlen : pubkey.toList.length = 65 := pubkey.length_toList
      have hpubkey : arrayAt 65 pubkey.toList 0 = pubkey :=
        arrayAt_of_field hlen.ge (List.take_of_length_le hlen.le)
      generalize pubkey.toList = payload at hlen hpubkey ⊢
      simp [Packet.command, cmdTypeEncrypt, cmdEncryptKeyExchange, hlen, hpubkey]
  | openBtTransport =>
      exact ⟨⟨cmdTypeFile, cmdOpenBtTransport, [0x00]⟩, rfl, by simp, by decide⟩
  | closeBtTransport =>
      exact ⟨⟨cmdTypeFile, cmdCloseBtTransport, [0x00]⟩, rfl, by simp, by decide⟩

theorem delimits_packet (command : SentCommand) :
    Delimits readCommand SentCommand.packet command := by
  obtain ⟨p, hpacket, hlen, hcommand⟩ := command.packet_eq
  constructor
  case nonempty =>
    rw [hpacket]
    intro hnil
    have hlen := congrArg List.length hnil
    rw [length_buildCommand] at hlen
    cases hlen
  case reads =>
    intro rest
    rw [hpacket, readCommand, readPacket_buildCommand _ _ _ hlen]
    simp [hcommand]

/-- **The stream of commands is uniquely decodable**: reading the packets of
any commands gives these commands back, and no other commands have the same
stream. -/
theorem readCommands_packets :
    (∀ commands : List SentCommand,
      readCommands (commands.flatMap SentCommand.packet) = some commands) ∧
    Function.Injective fun commands : List SentCommand =>
      commands.flatMap SentCommand.packet :=
  ⟨fun _ => readAll_encode fun command _ => delimits_packet command,
    flatMap_injective delimits_packet⟩

end MicRs
