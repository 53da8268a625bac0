import MicRs.Model.Rust

/-!
# Errors of the crate

`RecorderError` with its payloads. An operation of the crate ends with a value,
with a `RecorderError` or with a panic; `Fault` is the last two.
-/

namespace MicRs

inductive RecorderError
  | noAdapter
  | deviceNotFound
  | connectionFailed (message : String)
  | characteristicNotFound (message : String)
  | handshakeFailed (message : String)
  | invalidResponse (message : String)
  | fileTransferError (message : String)
  | cryptoError (message : String)
  | fileNotExists (fileId : UInt32)
  | timeout
  | disconnected
  /-- `#[from] std::io::Error`, as its text. -/
  | io (message : String)
  /-- `#[from] btleplug::Error`, as its text. -/
  | ble (message : String)
deriving DecidableEq, Repr

inductive Fault
  | error (e : RecorderError)
  | panic (p : Panic)
deriving DecidableEq, Repr

def Fault.IsPanic (e : Fault) : Prop := ∃ p, e = .panic p

instance : DecidablePred Fault.IsPanic
  | .error _ => isFalse (by rintro ⟨_, h⟩; cases h)
  | .panic p => isTrue ⟨p, rfl⟩

end MicRs
