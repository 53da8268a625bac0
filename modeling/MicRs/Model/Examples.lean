import MicRs.Model.Ble

/-!
# `README.md` and `download_all.rs`: progress in percent

The two progress callbacks that come with the crate. Both multiply in `u32`.
-/

namespace MicRs

variable (profile : Profile) (p : DownloadProgress)

/-- `pct` in the callback of the README. -/
def readmePct : Rust UInt32 := do
  let product ← mulU32 profile p.bytesReceived 100
  return product / max p.totalBytes 1

/-- `pct` in the callback of `download_all.rs`. -/
def downloadAllPct : Rust UInt32 := do
  if p.totalBytes > 0 then
    let product ← mulU32 profile p.bytesReceived 100
    return product / p.totalBytes
  else
    return 0

end MicRs
