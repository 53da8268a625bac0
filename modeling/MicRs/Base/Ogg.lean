import Mathlib.Data.List.Basic
import MicRs.Base.Endian
import MicRs.Base.Framing

/-!
# Ogg pages and packets

A reader for the container of RFC 3533, for any checksum function: `readPages`
cuts a byte string into pages, checking capture pattern, version and checksum
of each, and `packets` puts the packets together again from the lacing values,
across pages where a packet is continued. A page is read back from its encoding
(`readPage_encode`), a string of pages from the encodings of the pages
(`readPages_encode`), and the packets of a page that holds whole packets are
those laced into it (`lacePackets_whole`).
-/

namespace MicRs.Ogg

open Endian Framing

/-! ## Pages -/

/-- What a page holds, apart from its checksum. -/
structure Page where
  flags : ℕ
  granule : ℕ
  serial : ℕ
  sequence : ℕ
  lacing : List UInt8
  body : List UInt8

/-- Flag bit 0: the first packet continues one of the page before. -/
def Page.continued (p : Page) : Bool := p.flags.testBit 0

/-- Flag bit 1: beginning of stream. -/
def Page.first (p : Page) : Bool := p.flags.testBit 1

/-- Flag bit 2: end of stream. -/
def Page.last (p : Page) : Bool := p.flags.testBit 2

/-- The body length a lacing table announces. -/
def bodyLength (lacing : List UInt8) : ℕ := (lacing.map UInt8.toNat).sum

def capture : List UInt8 := [0x4F, 0x67, 0x67, 0x53]

/-- The number in the `w` bytes from `lo` on. -/
def field (bytes : List UInt8) (lo w : ℕ) : ℕ :=
  leNat ((bytes.drop lo).take w)

/-- Read one page off the front of a byte string. -/
def readPage (crc : List UInt8 → ℕ) (bytes : List UInt8) :
    Option (Page × List UInt8) :=
  let lacing := (bytes.drop 27).take (field bytes 26 1)
  let size := 27 + field bytes 26 1 + bodyLength lacing
  let page := bytes.take size
  if size ≤ bytes.length ∧ page.take 4 = capture ∧ field page 4 1 = 0 ∧
      field page 22 4 = crc (page.take 22 ++ [0, 0, 0, 0] ++ page.drop 26) then
    some ({
      flags := field page 5 1
      granule := field page 6 8
      serial := field page 14 4
      sequence := field page 18 4
      lacing
      body := page.drop (27 + field bytes 26 1) }, bytes.drop size)
  else none

/-- Read a byte string as pages, all of it. -/
def readPages (crc : List UInt8 → ℕ) (bytes : List UInt8) :
    Option (List Page) :=
  readAll (readPage crc) bytes

/-! ## Packets -/

/-- Go through the segments of a page: the packets it completes, and the packet
still open at its end. `pending` is the packet open before. -/
def lacePackets : Option (List UInt8) → List UInt8 → List UInt8 →
    List (List UInt8) × Option (List UInt8)
  | pending, [], _ => ([], pending)
  | pending, l :: ls, body =>
      let packet := pending.getD [] ++ body.take l.toNat
      let rest := body.drop l.toNat
      if l.toNat < 255 then
        let (done, pending') := lacePackets none ls rest
        (packet :: done, pending')
      else lacePackets (some packet) ls rest

/-- The packets a page completes when no packet is open before it. -/
def Page.packets (p : Page) : List (List UInt8) :=
  (lacePackets none p.lacing p.body).1

/-- The packets of a sequence of pages; a page must carry the continuation flag
exactly if a packet is open before it, and none may be open at the end. -/
def packetsFrom : Option (List UInt8) → List Page → Option (List (List UInt8))
  | none, [] => some []
  | some _, [] => none
  | pending, p :: ps =>
      if p.continued = pending.isSome then
        let (done, pending') := lacePackets pending p.lacing p.body
        (packetsFrom pending' ps).map (done ++ ·)
      else none

def packets (ps : List Page) : Option (List (List UInt8)) := packetsFrom none ps

/-! ## Encoding -/

/-- The header fields before the checksum. -/
def Page.front (p : Page) : List UInt8 :=
  capture ++ leBytes 1 0 ++ leBytes 1 p.flags ++ leBytes 8 p.granule ++
    leBytes 4 p.serial ++ leBytes 4 p.sequence

/-- What follows the checksum. -/
def Page.back (p : Page) : List UInt8 :=
  leBytes 1 p.lacing.length ++ p.lacing ++ p.body

def Page.encode (crc : List UInt8 → ℕ) (p : Page) : List UInt8 :=
  p.front ++ leBytes 4 (crc (p.front ++ [0, 0, 0, 0] ++ p.back)) ++ p.back

/-- A page whose fields fit their widths and whose lacing table describes its
body. -/
structure Page.Valid (p : Page) : Prop where
  flags : p.flags < 256
  granule : p.granule < 256 ^ 8
  serial : p.serial < 256 ^ 4
  sequence : p.sequence < 256 ^ 4
  lacing : p.lacing.length < 256
  body : bodyLength p.lacing = p.body.length

@[simp] theorem Page.length_front (p : Page) : p.front.length = 22 := by
  simp [Page.front, capture]

/-- A field is read from wherever it stands. -/
theorem field_of_split {bytes : List UInt8} (pre : List UInt8)
    {post : List UInt8} {lo w v : ℕ} (hbytes : bytes = pre ++ (leBytes w v ++ post))
    (hpre : pre.length = lo) (hv : v < 256 ^ w) : field bytes lo w = v := by
  rw [field, hbytes, List.drop_left' hpre, List.take_left' (length_leBytes w v),
    leNat_leBytes_of_lt hv]

/-- The fields in front of the checksum are read where they stand. -/
theorem Page.Valid.front_fields {p : Page} (hp : p.Valid) (post : List UInt8) :
    (p.front ++ post).take 4 = capture ∧ field (p.front ++ post) 4 1 = 0 ∧
      field (p.front ++ post) 5 1 = p.flags ∧
      field (p.front ++ post) 6 8 = p.granule ∧
      field (p.front ++ post) 14 4 = p.serial ∧
      field (p.front ++ post) 18 4 = p.sequence := by
  have hfields : p.front ++ post = capture ++ (leBytes 1 0 ++
      (leBytes 1 p.flags ++ (leBytes 8 p.granule ++ (leBytes 4 p.serial ++
        (leBytes 4 p.sequence ++ post))))) := by
    simp only [Page.front, List.append_assoc]
  refine ⟨?_, ?_, ?_, ?_, ?_, ?_⟩
  · rw [hfields]
    exact List.take_left' rfl
  · exact field_of_split capture hfields rfl (by norm_num)
  · exact field_of_split (capture ++ leBytes 1 0)
      (by rw [hfields, List.append_assoc]) rfl (by simpa using hp.flags)
  · exact field_of_split (capture ++ leBytes 1 0 ++ leBytes 1 p.flags)
      (by simp only [hfields, List.append_assoc]; rfl) rfl hp.granule
  · exact field_of_split (capture ++ leBytes 1 0 ++ leBytes 1 p.flags ++
      leBytes 8 p.granule)
      (by simp only [hfields, List.append_assoc]; rfl) rfl hp.serial
  · exact field_of_split (capture ++ leBytes 1 0 ++ leBytes 1 p.flags ++
      leBytes 8 p.granule ++ leBytes 4 p.serial)
      (by simp only [hfields, List.append_assoc]; rfl) rfl hp.sequence

/-- The lacing table and the body are read where they stand, whatever the
checksum is. -/
theorem Page.Valid.back_fields {p : Page} (hp : p.Valid) {checksum : List UInt8}
    (hchecksum : checksum.length = 4) (rest : List UInt8) :
    field (p.front ++ checksum ++ p.back ++ rest) 26 1 = p.lacing.length ∧
      ((p.front ++ checksum ++ p.back ++ rest).drop 27).take p.lacing.length =
        p.lacing ∧
      (p.front ++ checksum ++ p.back).drop (27 + p.lacing.length) = p.body := by
  have hlen : (p.front ++ checksum).length = 26 := by simp [hchecksum]
  refine ⟨?_, ?_, ?_⟩
  · have hsplit : p.front ++ checksum ++ p.back ++ rest =
        p.front ++ checksum ++
          (leBytes 1 p.lacing.length ++ (p.lacing ++ (p.body ++ rest))) := by
      simp [Page.back]
    exact field_of_split _ hsplit hlen (by simpa using hp.lacing)
  · have hsplit : p.front ++ checksum ++ p.back ++ rest =
        (p.front ++ checksum ++ leBytes 1 p.lacing.length) ++
          (p.lacing ++ (p.body ++ rest)) := by
      simp [Page.back]
    rw [hsplit, List.drop_left' (by simp [hchecksum]), List.take_left' rfl]
  · have hsplit : p.front ++ checksum ++ p.back =
        (p.front ++ checksum ++ leBytes 1 p.lacing.length ++ p.lacing) ++
          p.body := by
      simp [Page.back]
    rw [hsplit, List.drop_left' (by simp [hchecksum]; omega)]

/-- **A page is read back from its encoding**, and what follows it is left. -/
theorem readPage_encode {crc : List UInt8 → ℕ}
    (hcrc : ∀ bytes, crc bytes < 256 ^ 4) {p : Page} (hp : p.Valid)
    (rest : List UInt8) :
    readPage crc (p.encode crc ++ rest) = some (p, rest) := by
  set checksum := leBytes 4 (crc (p.front ++ [0, 0, 0, 0] ++ p.back))
    with hchecksum
  have hlen : checksum.length = 4 := length_leBytes 4 _
  have henc : p.encode crc = p.front ++ checksum ++ p.back := rfl
  have hassoc : p.encode crc = p.front ++ (checksum ++ p.back) := by
    rw [henc, List.append_assoc]
  obtain ⟨hcount, hlacing, hbody⟩ := hp.back_fields hlen rest
  rw [← henc] at hcount hlacing hbody
  obtain ⟨hcapture, hversion, hflags, hgranule, hserial, hsequence⟩ :=
    hp.front_fields (checksum ++ p.back)
  rw [← hassoc] at hcapture hversion hflags hgranule hserial hsequence
  have hsize : 27 + p.lacing.length + bodyLength p.lacing =
      (p.encode crc).length := by
    simp [henc, hlen, Page.back, hp.body]
    omega
  have hpage : (p.encode crc ++ rest).take (p.encode crc).length =
      p.encode crc := List.take_left' rfl
  have hrest : (p.encode crc ++ rest).drop (p.encode crc).length = rest :=
    List.drop_left' rfl
  have hfits : (p.encode crc).length ≤ (p.encode crc ++ rest).length := by simp
  -- The checksum is right for the page with the checksum zeroed.
  have hstored : field (p.encode crc) 22 4 =
      crc (p.front ++ [0, 0, 0, 0] ++ p.back) :=
    field_of_split p.front hassoc p.length_front (hcrc _)
  have hzeroed : (p.encode crc).take 22 ++ [0, 0, 0, 0] ++
      (p.encode crc).drop 26 = p.front ++ [0, 0, 0, 0] ++ p.back := by
    have hcut : (p.encode crc).take 22 = p.front := by
      rw [hassoc, List.take_left' p.length_front]
    have hback : (p.encode crc).drop 26 = p.back := by
      rw [henc, List.drop_left' (by simp [hlen])]
    rw [hcut, hback]
  simp only [readPage, hcount, hlacing, hsize, hpage, hrest, hcapture, hversion,
    hstored, hzeroed, hflags, hgranule, hserial, hsequence, hbody]
  rw [if_pos ⟨hfits, trivial, trivial, trivial⟩]

theorem Page.encode_ne_nil (crc : List UInt8 → ℕ) (p : Page) :
    p.encode crc ≠ [] := by
  simp [Page.encode, Page.front, capture]

/-- **A string of encoded pages is read back as the pages.** -/
theorem readPages_encode {crc : List UInt8 → ℕ}
    (hcrc : ∀ bytes, crc bytes < 256 ^ 4) {ps : List Page}
    (hps : ∀ p ∈ ps, p.Valid) :
    readPages crc (ps.flatMap (Page.encode crc)) = some ps :=
  readAll_encode fun p hp =>
    ⟨p.encode_ne_nil crc, readPage_encode hcrc (hps p hp)⟩

/-! ## Lacing -/

/-- The lacing values of a packet of `n` bytes. -/
def laces (n : ℕ) : List UInt8 :=
  List.replicate (n / 255) 255 ++ [UInt8.ofNat (n % 255)]

theorem length_laces (n : ℕ) : (laces n).length = n / 255 + 1 := by
  simp [laces]

theorem bodyLength_append (as bs : List UInt8) :
    bodyLength (as ++ bs) = bodyLength as + bodyLength bs := by
  simp [bodyLength]

theorem bodyLength_laces (n : ℕ) : bodyLength (laces n) = n := by
  have hlt : n % 255 < 256 := by omega
  simp [laces, bodyLength, Nat.mod_eq_of_lt hlt]
  omega

theorem laces_of_lt {n : ℕ} (h : n < 255) : laces n = [UInt8.ofNat n] := by
  simp [laces, Nat.div_eq_of_lt h, Nat.mod_eq_of_lt h]

theorem laces_of_ge {n : ℕ} (h : 255 ≤ n) : laces n = 255 :: laces (n - 255) := by
  have hdiv : n / 255 = (n - 255) / 255 + 1 := by omega
  have hmod : n % 255 = (n - 255) % 255 := by omega
  rw [laces, hdiv, hmod, List.replicate_succ]
  rfl

/-- The lacing values of one packet complete that packet and no other. -/
theorem lacePackets_laces (ls body : List UInt8) (n : ℕ) :
    ∀ (pending : Option (List UInt8)) (packet : List UInt8), packet.length = n →
    lacePackets pending (laces n ++ ls) (packet ++ body) =
      ((pending.getD [] ++ packet) :: (lacePackets none ls body).1,
        (lacePackets none ls body).2) := by
  induction n using Nat.strong_induction_on with
  | h n ih =>
      intro pending packet hlen
      rcases Nat.lt_or_ge n 255 with hlt | hge
      · have hval : (UInt8.ofNat n).toNat = n := by
          rw [UInt8.toNat_ofNat']
          omega
        rw [laces_of_lt hlt, List.singleton_append, lacePackets]
        simp only [hval, hlt, if_true, List.take_left' hlen,
          List.drop_left' hlen]
      · have hsplit : packet ++ body =
            packet.take 255 ++ (packet.drop 255 ++ body) := by
          rw [← List.append_assoc, List.take_append_drop]
        have htake : (packet.take 255).length = 255 := by simp; omega
        rw [laces_of_ge hge, List.cons_append, lacePackets, hsplit]
        simp only [UInt8.reduceToNat, Nat.lt_irrefl, if_false,
          List.take_left' htake, List.drop_left' htake]
        rw [ih (n - 255) (by omega) _ (packet.drop 255) (by simp; omega)]
        simp

/-- **A page of whole packets gives them back**, and leaves none open. -/
theorem lacePackets_whole (packets : List (List UInt8)) :
    lacePackets none (packets.flatMap fun packet => laces packet.length)
      packets.flatten = (packets, none) := by
  induction packets with
  | nil => rfl
  | cons packet packets ih =>
      rw [List.flatMap_cons, List.flatten_cons,
        lacePackets_laces _ _ packet.length none packet rfl, ih]
      rfl

theorem bodyLength_whole (packets : List (List UInt8)) :
    bodyLength (packets.flatMap fun packet => laces packet.length) =
      packets.flatten.length := by
  induction packets with
  | nil => rfl
  | cons packet packets ih =>
      rw [List.flatMap_cons, bodyLength_append, bodyLength_laces, ih,
        List.flatten_cons, List.length_append]

/-- Pages of whole packets, none of them flagged as continued, give the
packets of one page after the other. -/
theorem packets_of_whole {ps : List Page}
    (h : ∀ p ∈ ps, p.continued = false ∧
      p.lacing = p.packets.flatMap (fun packet => laces packet.length) ∧
      p.body = p.packets.flatten) :
    packets ps = some (ps.flatMap Page.packets) := by
  induction ps with
  | nil => rfl
  | cons p ps ih =>
      obtain ⟨hcont, hlacing, hbody⟩ := h p List.mem_cons_self
      have hlace : lacePackets none p.lacing p.body = (p.packets, none) := by
        rw [hlacing, hbody]
        exact lacePackets_whole p.packets
      have hrest := ih fun q hq => h q (List.mem_cons_of_mem _ hq)
      unfold packets at hrest ⊢
      rw [packetsFrom]
      simp [hcont, hlace, hrest]

end MicRs.Ogg
