import MicRs.Transfer.Samples

/-!
# Slice packets, encoded and decoded

A packet of slices is any nine bytes, the slices at 166 bytes each, and what is
too short for another one (`slicePacket`). `parse_audio_slices` gives back its
slices and no other, so the slices of two packets may be sent in one
(`parseAudioSlices_decodes`).
-/

namespace MicRs

/-- A packet of slices with anything in front and behind. -/
def slicePacket (header : Vector UInt8 9) (slices : List WireSlice)
    (trailing : List UInt8) : List UInt8 :=
  header.toList ++ slices.flatMap WireSlice.encode ++ trailing

/-- The slice a device means: the marker is bit 0 of the flags. -/
def WireSlice.meant (slice : WireSlice) : AudioSlice where
  sequenceNumber := slice.sequenceNumber
  hasMarker := slice.flags.toNat.testBit 0
  encryptedChunk := slice.chunk

/-- The mask of the parser tests bit 0. -/
theorem WireSlice.parsed_eq_meant (slice : WireSlice) :
    slice.parsed = slice.meant := by
  have hmask : (slice.flags &&& 0x01).toNat = slice.flags.toNat % 2 := by
    rw [UInt8.toNat_and]
    exact Nat.and_one_is_mod _
  have hbit : decide (slice.flags &&& 0x01 ≠ 0) =
      slice.flags.toNat.testBit 0 := by
    rw [Nat.testBit_zero, decide_eq_decide, ne_eq, ← UInt8.toNat_inj, hmask]
    exact Nat.mod_two_ne_zero
  rw [WireSlice.parsed, WireSlice.meant, hbit]

theorem parseAudioSlices_slicePacket (header : Vector UInt8 9)
    (slices : List WireSlice) {trailing : List UInt8}
    (hshort : trailing.length < 166) :
    parseAudioSlices (slicePacket header slices trailing) =
      .ok (slices.map WireSlice.meant) := by
  have hdrop : (slicePacket header slices trailing).drop 9 =
      slices.flatMap WireSlice.encode ++ trailing := by
    rw [slicePacket, List.append_assoc, List.drop_left' header.length_toList]
  have hmeant : slices.map WireSlice.parsed = slices.map WireSlice.meant :=
    List.map_congr_left fun slice _ => slice.parsed_eq_meant
  rw [parseAudioSlices_eq, audioSlicesOf_encode hshort hdrop, hmeant]

/-- **The parser undoes the layout of a packet**, and a packet that holds the
bodies of two gives the slices of one and then of the other. -/
theorem parseAudioSlices_decodes (header : Vector UInt8 9)
    (slices : List WireSlice) {trailing : List UInt8}
    (hshort : trailing.length < 166) :
    parseAudioSlices (slicePacket header slices trailing) =
      .ok (slices.map WireSlice.meant) ∧
    ∀ (header' header'' : Vector UInt8 9) (slices' : List WireSlice)
      (trailing' trailing'' : List UInt8),
      trailing'.length < 166 → trailing''.length < 166 →
      ∃ found found',
        parseAudioSlices (slicePacket header slices trailing) = .ok found ∧
        parseAudioSlices (slicePacket header' slices' trailing') =
          .ok found' ∧
        parseAudioSlices (slicePacket header'' (slices ++ slices') trailing'') =
          .ok (found ++ found') := by
  have hfirst := parseAudioSlices_slicePacket header slices hshort
  refine ⟨hfirst, ?_⟩
  intro header' header'' slices' trailing' trailing'' hshort' hshort''
  have hsecond := parseAudioSlices_slicePacket header' slices' hshort'
  have hboth := parseAudioSlices_slicePacket header'' (slices ++ slices') hshort''
  rw [List.map_append] at hboth
  exact ⟨_, _, hfirst, hsecond, hboth⟩

/-- Two slices, the longest trailer there may be, and a third slice in a packet
of its own. -/
theorem parseAudioSlices_decodes_three :
    parseAudioSlices (slicePacket (Vector.replicate 9 0)
        [.uniform 1 0x55, .uniform 2 0xAA] (List.replicate 165 0xFF)) =
      .ok [(WireSlice.uniform 1 0x55).meant, (WireSlice.uniform 2 0xAA).meant] ∧
    ∃ found found',
      parseAudioSlices (slicePacket (Vector.replicate 9 0)
        [.uniform 1 0x55, .uniform 2 0xAA] (List.replicate 165 0xFF)) =
        .ok found ∧
      parseAudioSlices (slicePacket (Vector.replicate 9 0xFF)
        [.uniform 3 0x00] []) = .ok found' ∧
      parseAudioSlices (slicePacket (Vector.replicate 9 0)
        ([.uniform 1 0x55, .uniform 2 0xAA] ++ [.uniform 3 0x00]) [0x5A]) =
        .ok (found ++ found') := by
  have hshort : (List.replicate 165 (0xFF : UInt8)).length < 166 := by
    rw [List.length_replicate]
    decide
  obtain ⟨hfirst, hboth⟩ := parseAudioSlices_decodes (Vector.replicate 9 0)
    [.uniform 1 0x55, .uniform 2 0xAA] hshort
  exact ⟨hfirst, hboth (Vector.replicate 9 0xFF) (Vector.replicate 9 0)
    [.uniform 3 0x00] [] [0x5A] (by decide) (by decide)⟩

end MicRs
