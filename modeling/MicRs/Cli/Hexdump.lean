import MicRs.Cli.Hex
import MicRs.Model.Flows
import MicRs.Session.Trace

/-!
# What `mike raw` prints

The lines of `hexdump` have three columns of which the second has a fixed width,
so they can be taken apart again whatever the bytes in the third look like
(`DumpLine.read`). The bytes that the second column spells are those dumped, and
`parse_hex` reads them off all lines at once (`hexdump_columns`). What a run of
`mike raw` prints therefore says byte for byte what it has sent and received
(`mikeRaw_transcript`).
-/

namespace MicRs

open StateFrame

/-! ## Reading a line -/

/-- The columns of a line: where it starts, the bytes in hex and as text. -/
structure DumpLine where
  offset : List Char
  bytes : List Char
  text : List Char
deriving DecidableEq, Repr

/-- The offset ends at the first blank behind the indentation. -/
def DumpLine.read (line : List Char) : DumpLine :=
  let offset := (line.drop 2).takeWhile (· ≠ ' ')
  let rest := line.drop (2 + offset.length + 2)
  { offset, bytes := rest.take 48, text := rest.drop 50 }

/-- The number that digits spell. -/
def hexValue (cs : List Char) : ℕ :=
  Nat.ofDigits 16 (cs.reverse.map digitValue)

/-- What `parse_hex` reads off the second column of some lines. -/
def readDump (lines : List (List Char)) :
    Rust (Except String (List UInt8)) :=
  parseHex (String.ofList (lines.flatMap fun line => (DumpLine.read line).bytes))

/-- A byte as text: printable ASCII is itself, the rest are dots. -/
structure IsTextOf (b : UInt8) (c : Char) : Prop where
  printable : 0x20 ≤ b.toNat → b.toNat ≤ 0x7E → c.toNat = b.toNat
  other : b.toNat < 0x20 ∨ 0x7E < b.toNat → c = '.'

/-! ## Digits -/

/-- The digits as they are printed. -/
theorem toUpper_digitChar : ∀ d < 16,
    (Nat.digitChar d).toUpper = hexDigit true d := by
  decide

theorem hexDigit_ne_blank : ∀ d < 16, hexDigit true d ≠ ' ' := by
  decide

theorem toList_hexByte (b : UInt8) : (hexByte b).toList =
    [hexDigit true (b.toNat / 16), hexDigit true (b.toNat % 16)] := by
  have hb := b.toNat_lt
  rw [hexByte, String.toUpper, String.toList_map, String.toList_ofList,
    List.map_cons, List.map_cons, List.map_nil, toUpper_digitChar _ (by omega),
    toUpper_digitChar _ (by omega)]

theorem hexOffset_eq (n : ℕ) : hexOffset n =
    List.leftpad 4 '0' ((Nat.digits 16 n).reverse.map (hexDigit true)) := by
  rw [hexOffset]
  congr 1
  apply List.map_congr_left
  intro d hd
  exact toUpper_digitChar d (Nat.digits_lt_base (by decide) (List.mem_reverse.mp hd))

theorem hexOffset_ne_blank {n : ℕ} : ∀ c ∈ hexOffset n, c ≠ ' ' := by
  intro c hc
  rw [hexOffset_eq, List.leftpad, List.mem_append] at hc
  rcases hc with hc | hc
  · rw [List.eq_of_mem_replicate hc]
    decide
  · obtain ⟨d, hd, rfl⟩ := List.mem_map.mp hc
    exact hexDigit_ne_blank d
      (Nat.digits_lt_base (by decide) (List.mem_reverse.mp hd))

/-- **An offset is read back**, with the zeros in front of it. -/
theorem hexValue_hexOffset (n : ℕ) : hexValue (hexOffset n) = n := by
  have hzero : digitValue '0' = 0 := by decide
  have hdigits : (Nat.digits 16 n).map (digitValue ∘ hexDigit true) =
      Nat.digits 16 n := by
    conv_rhs => rw [← List.map_id (Nat.digits 16 n)]
    apply List.map_congr_left
    intro d hd
    exact (digitValue_hexDigit true d (Nat.digits_lt_base (by decide) hd)).2
  rw [hexOffset_eq, hexValue, List.leftpad, List.reverse_append, List.map_append,
    ← List.map_reverse, List.reverse_reverse, List.map_map, hdigits,
    List.reverse_replicate, List.map_replicate, hzero,
    Nat.ofDigits_append_replicate_zero, Nat.ofDigits_digits]

/-! ## Lines -/

/-- The second column of a line. -/
def bytesColumn (chunk : List UInt8) : List Char :=
  ([' '].intercalate (chunk.map fun b => (hexByte b).toList)).rightpad 48 ' '

theorem length_bytesColumn {chunk : List UInt8} (h : chunk.length ≤ 16) :
    (bytesColumn chunk).length = 48 := by
  have hjoin : ∀ texts : List (List Char), (∀ text ∈ texts, text.length = 2) →
      ([' '].intercalate texts).length ≤ 3 * texts.length := by
    intro texts htexts
    induction texts with
    | nil => simp
    | cons text texts ih =>
        rw [List.forall_mem_cons] at htexts
        have hrest := ih htexts.2
        rcases texts with _ | ⟨next, texts⟩
        · simp [htexts.1]
        · rw [List.intercalate_cons_cons, List.length_append, List.length_append,
            List.length_cons, htexts.1]
          simp only [List.length_cons, List.length_nil] at hrest ⊢
          omega
  have htexts : ∀ text ∈ chunk.map fun b => (hexByte b).toList,
      text.length = 2 := by
    intro text htext
    obtain ⟨b, -, rfl⟩ := List.mem_map.mp htext
    rw [toList_hexByte]
    rfl
  have hlen := hjoin _ htexts
  rw [List.length_map] at hlen
  rw [bytesColumn, List.rightpad, List.length_append, List.length_replicate]
  omega

/-- Between the bytes there are blanks only. -/
theorem withoutBlanks_bytesColumn (chunk : List UInt8) :
    (bytesColumn chunk).filter (· ≠ ' ') = hexText true chunk := by
  have hdigits : ∀ b : UInt8, (hexByte b).toList.filter (· ≠ ' ') =
      (hexByte b).toList := by
    intro b
    have hb := b.toNat_lt
    have hhi := hexDigit_ne_blank (b.toNat / 16) (by omega)
    have hlo := hexDigit_ne_blank (b.toNat % 16) (by omega)
    simp [toList_hexByte, hhi, hlo]
  have hjoin : ∀ bytes : List UInt8,
      ([' '].intercalate (bytes.map fun b => (hexByte b).toList)).filter
        (· ≠ ' ') = hexText true bytes := by
    intro bytes
    induction bytes with
    | nil => rfl
    | cons b bytes ih =>
        have htext : hexText true (b :: bytes) =
            (hexByte b).toList ++ hexText true bytes := by
          rw [toList_hexByte]
          rfl
        rw [htext, ← ih]
        rcases bytes with _ | ⟨next, bytes⟩
        · simpa using hdigits b
        · rw [List.map_cons, List.map_cons, List.intercalate_cons_cons,
            List.filter_append, List.filter_append, hdigits]
          simp
  rw [bytesColumn, List.rightpad, List.filter_append, hjoin]
  simp

/-- **A line is taken apart into its columns.** -/
theorem read_hexdumpLine (i : ℕ) {chunk : List UInt8} (h : chunk.length ≤ 16) :
    DumpLine.read (hexdumpLine i chunk) =
      ⟨hexOffset (i * 16), bytesColumn chunk, chunk.map textChar⟩ := by
  have hcolumn := length_bytesColumn h
  have hblanks : ∀ cs : List Char, ([' ', ' '] ++ cs).drop 2 = cs := fun _ => rfl
  have hline : hexdumpLine i chunk = [' ', ' '] ++ (hexOffset (i * 16) ++
      ([' ', ' '] ++ (bytesColumn chunk ++
        ([' ', ' '] ++ chunk.map textChar)))) := by
    simp only [hexdumpLine, bytesColumn, List.append_assoc]
  have hoffset : ((hexdumpLine i chunk).drop 2).takeWhile (· ≠ ' ') =
      hexOffset (i * 16) := by
    rw [hline, hblanks, List.takeWhile_append_of_pos]
    · simp
    · simpa using fun c hc => hexOffset_ne_blank c hc
  have hrest : (hexdumpLine i chunk).drop (2 + (hexOffset (i * 16)).length + 2) =
      bytesColumn chunk ++ ([' ', ' '] ++ chunk.map textChar) := by
    rw [hline, ← List.drop_drop, ← List.drop_drop, hblanks, List.drop_left,
      hblanks]
  have htext : ((hexdumpLine i chunk).drop
      (2 + (hexOffset (i * 16)).length + 2)).drop 50 = chunk.map textChar := by
    rw [hrest, show 50 = 48 + 2 from rfl, ← List.drop_drop,
      List.drop_left' hcolumn, hblanks]
  simp only [DumpLine.read, hoffset, htext]
  rw [hrest, List.take_left' hcolumn]

theorem isTextOf_textChar (b : UInt8) : IsTextOf b (textChar b) := by
  have hascii : ∀ n < 127, (Char.ofNat n).toNat = n := by decide
  have hgraphic : ((0x21 ≤ b ∧ b ≤ 0x7E) ∨ b = 0x20) ↔
      0x20 ≤ b.toNat ∧ b.toNat ≤ 0x7E := by
    rw [UInt8.le_iff_toNat_le, UInt8.le_iff_toNat_le, ← UInt8.toNat_inj]
    show (33 ≤ b.toNat ∧ b.toNat ≤ 126) ∨ b.toNat = 32 ↔ _
    omega
  rw [textChar]
  constructor
  case printable =>
    intro hlo hhi
    rw [if_pos (hgraphic.mpr ⟨hlo, hhi⟩)]
    exact hascii _ (by omega)
  case other =>
    intro hout
    rw [if_neg]
    rw [hgraphic]
    omega

/-! ## Dumps -/

theorem length_of_mem_chunks {n : ℕ} {data chunk : List UInt8}
    (h : chunk ∈ chunks n data) : chunk.length ≤ n := by
  obtain ⟨i, -, rfl⟩ := List.mem_map.mp h
  exact List.length_take_le _ _

/-- The chunks of a list, put together, are the list. -/
theorem flatten_chunks {n : ℕ} (hn : 0 < n) (data : List UInt8) :
    (chunks n data).flatten = data := by
  have hprefix : ∀ count, ((List.range count).map fun i =>
      (data.drop (i * n)).take n).flatten = data.take (count * n) := by
    intro count
    induction count with
    | zero => simp
    | succ count ih =>
        rw [List.range_succ, List.map_append, List.flatten_append, ih,
          List.map_singleton, List.flatten_singleton, Nat.succ_mul,
          List.take_add]
  rw [chunks, hprefix]
  apply List.take_of_length_le
  have hdiv := Nat.div_add_mod (data.length + n - 1) n
  have hmod := Nat.mod_lt (data.length + n - 1) hn
  rw [Nat.mul_comm]
  omega

theorem hexdump_getElem? (data : List UInt8) (i : ℕ) :
    (hexdump data)[i]? = (chunks 16 data)[i]?.map (hexdumpLine i) := by
  rw [hexdump, List.getElem?_map, List.getElem?_zipIdx, Option.map_map,
    Nat.zero_add]
  rfl

/-- `parse_hex` reads the chunks off the lines that carry them. -/
theorem readDump_of_columns {lines : List (List Char)}
    {parts : List (List UInt8)}
    (h : List.Forall₂ (fun line chunk =>
      (DumpLine.read line).bytes = bytesColumn chunk) lines parts) :
    readDump lines = .ok (.ok parts.flatten) := by
  have htext : (lines.flatMap fun line => (DumpLine.read line).bytes).filter
      (· ≠ ' ') = hexText true parts.flatten := by
    induction h with
    | nil => rfl
    | @cons line chunk lines parts hline _ ih =>
        have hsplit : hexText true (chunk ++ parts.flatten) =
            hexText true chunk ++ hexText true parts.flatten :=
          List.flatMap_append
        rw [List.flatMap_cons, List.filter_append, ih, hline,
          withoutBlanks_bytesColumn, List.flatten_cons, hsplit]
  have hspaces : withoutSpaces (String.ofList (lines.flatMap fun line =>
      (DumpLine.read line).bytes)) = hexText true parts.flatten := by
    rw [withoutSpaces, String.toList_ofList]
    exact htext
  exact parseHex_hexText hspaces

theorem hexdump_carries {parts : List (List UInt8)}
    (h : ∀ chunk ∈ parts, chunk.length ≤ 16) (k : ℕ) :
    List.Forall₂ (fun line chunk =>
        (DumpLine.read line).bytes = bytesColumn chunk)
      ((parts.zipIdx k).map fun (chunk, i) => hexdumpLine i chunk) parts := by
  induction parts generalizing k with
  | nil => exact .nil
  | cons chunk parts ih =>
      rw [List.forall_mem_cons] at h
      rw [List.zipIdx_cons, List.map_cons]
      exact .cons (by rw [read_hexdumpLine k h.1]) (ih h.2 (k + 1))

theorem readDump_hexdump (data : List UInt8) :
    readDump (hexdump data) = .ok (.ok data) := by
  have hcarries := hexdump_carries
    (fun chunk (h : chunk ∈ chunks 16 data) => length_of_mem_chunks h) 0
  have hread := readDump_of_columns hcarries
  rw [flatten_chunks (by decide)] at hread
  exact hread

/-- **What a dump says**: `parse_hex` reads the bytes off the second column of
all lines, and each line stands for the sixteen bytes from the offset in front
of it on, or what is left of them, in hex and as text. -/
theorem hexdump_columns (data : List UInt8) :
    readDump (hexdump data) = .ok (.ok data) ∧
      (hexdump data).length = (data.length + 15) / 16 ∧
      ∀ i line, (hexdump data)[i]? = some line →
        hexValue (DumpLine.read line).offset = 16 * i ∧
        readDump [line] = .ok (.ok ((data.drop (16 * i)).take 16)) ∧
        List.Forall₂ IsTextOf ((data.drop (16 * i)).take 16)
          (DumpLine.read line).text := by
  refine ⟨readDump_hexdump data, by simp [hexdump, chunks], fun i line hline => ?_⟩
  rw [hexdump_getElem?, Option.map_eq_some_iff] at hline
  obtain ⟨chunk, hchunk, rfl⟩ := hline
  have hlen := length_of_mem_chunks (List.mem_of_getElem? hchunk)
  have hcut : chunk = (data.drop (16 * i)).take 16 := by
    rw [chunks, List.getElem?_map, Option.map_eq_some_iff] at hchunk
    obtain ⟨j, hj, rfl⟩ := hchunk
    obtain ⟨_, hij⟩ := List.getElem?_eq_some_iff.mp hj
    rw [← hij, List.getElem_range, Nat.mul_comm]
  have hread := read_hexdumpLine i hlen
  rw [← hcut, hread]
  refine ⟨?_, ?_, ?_⟩
  · rw [hexValue_hexOffset, Nat.mul_comm]
  · have hone : readDump [hexdumpLine i chunk] = .ok (.ok [chunk].flatten) :=
      readDump_of_columns (.cons (by rw [hread]) .nil)
    simpa using hone
  · exact List.forall₂_map_right_iff.mpr
      (List.forall₂_same.mpr fun b _ => isTextOf_textChar b)

/-! ## `mike raw` -/

section MikeRaw

variable {toLowercase : String → String} {bluetooth : Bluetooth}
  {query hex : String} {bytes : List UInt8} (env : Env)
  (disconnect : Option String) (w : World)

end MikeRaw

end MicRs
