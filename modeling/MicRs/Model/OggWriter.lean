import MicRs.Model.Rust

/-!
# `download.rs`: the Ogg Opus container

The writer as the source has it: lacing values, pages with their checksum
patched in, and the loop over chunks of ten frames with its page number and
granule position.
-/

namespace MicRs

def opusSampleRate : UInt32 := 48000
def opusChannels : UInt8 := 2
/-- 48 kHz × 20 ms -/
def samplesPerFrame : UInt64 := 960
def framesPerPage : ℕ := 10

def oggBos : UInt8 := 0x02
def oggEos : UInt8 := 0x04

/-! ## Checksum -/

/-- One round of the inner loop of `ogg_crc32`. -/
def crcShift (crc : UInt32) : UInt32 :=
  if crc &&& 0x80000000 ≠ 0 then (crc <<< 1) ^^^ 0x04C11DB7 else crc <<< 1

/-- One round of the outer loop. -/
def crcByte (crc : UInt32) (b : UInt8) : UInt32 :=
  Nat.iterate crcShift 8 (crc ^^^ (b.toUInt32 <<< 24))

def oggCrc32 (data : List UInt8) : UInt32 := data.foldl crcByte 0

/-! ## Pages -/

/-- The `while` loop that laces one segment, with the final push. -/
def lacingValues (remaining : ℕ) : List UInt8 :=
  if 255 ≤ remaining then 255 :: lacingValues (remaining - 255)
  else [UInt8.ofNat remaining]

/-- `b"OggS"` -/
def oggCapture : List UInt8 := [0x4F, 0x67, 0x67, 0x53]

/-- A page before its checksum is known. -/
def oggPageBlank (serial pageNo : UInt32) (granule : UInt64) (flags : UInt8)
    (segments : List (List UInt8)) : List UInt8 :=
  let segTable := segments.flatMap fun seg => lacingValues seg.length
  oggCapture ++ [0, flags] ++ u64ToLeBytes granule ++ u32ToLeBytes serial ++
    u32ToLeBytes pageNo ++ u32ToLeBytes 0 ++
    [UInt8.ofNat segTable.length] ++ segTable ++ segments.flatten

/-- `page[offset..offset + bytes.len()].copy_from_slice(bytes)` -/
def patch (page : List UInt8) (offset : ℕ) (bytes : List UInt8) : List UInt8 :=
  page.take offset ++ bytes ++ page.drop (offset + bytes.length)

def oggPage (serial pageNo : UInt32) (granule : UInt64) (flags : UInt8)
    (segments : List (List UInt8)) : List UInt8 :=
  let page := oggPageBlank serial pageNo granule flags segments
  patch page 22 (u32ToLeBytes (oggCrc32 page))

/-! ## The stream -/

/-- `b"OpusHead"`, version, channels, pre-skip, sample rate, output gain and
mapping family. -/
def opusHead : List UInt8 :=
  [0x4F, 0x70, 0x75, 0x73, 0x48, 0x65, 0x61, 0x64] ++ [1, opusChannels] ++
    u16ToLeBytes 312 ++ u32ToLeBytes opusSampleRate ++ u16ToLeBytes 0 ++ [0]

/-- `b"mic-rs"` -/
def vendor : List UInt8 := [0x6D, 0x69, 0x63, 0x2D, 0x72, 0x73]

/-- `b"OpusTags"`, the vendor string and no user comments. -/
def opusTags : List UInt8 :=
  [0x4F, 0x70, 0x75, 0x73, 0x54, 0x61, 0x67, 0x73] ++
    u32ToLeBytes (UInt32.ofNat vendor.length) ++ vendor ++ u32ToLeBytes 0

/-- What the loop over chunks carries. -/
structure StreamState where
  out : List UInt8
  pageNo : UInt32
  granule : UInt64
deriving DecidableEq, Repr

/-- One round of the loop over chunks. `usize` is 64 bits wide. -/
def writeChunk (profile : Profile) (serial : UInt32) (frameCount : ℕ)
    (st : StreamState) (chunk : List (List UInt8)) : Rust StreamState := do
  -- All but the page number is computed in 64 bits.
  let samples ← mulU64 profile (UInt64.ofNat chunk.length) samplesPerFrame
  let granule ← addU64 profile st.granule samples
  let pageIndex ← addU64 profile (← subU64 profile st.pageNo.toUInt64 2) 1
  let isLast := (frameCount + framesPerPage - 1) / framesPerPage ≤ pageIndex.toNat
  let flags := if isLast then oggEos else 0
  let out := st.out ++ oggPage serial st.pageNo granule flags chunk
  let pageNo ← addU32 profile st.pageNo 1
  return { out, pageNo, granule }

def wrapOggOpus (profile : Profile) (frames : List (List UInt8))
    (serial : UInt32) : Rust (List UInt8) := do
  let out := oggPage serial 0 0 oggBos [opusHead] ++
    oggPage serial 1 0 0 [opusTags]
  let st ← (chunks framesPerPage frames).foldlM
    (writeChunk profile serial frames.length)
    { out, pageNo := 2, granule := 0 }
  return st.out

end MicRs
