import MicRs.Base.Utf8
import MicRs.Model.Rust

/-!
# `bin/mike.rs`: the bytes of a raw command

`parse_hex`, with what it uses of the standard library. A `&str` is its list of
characters; positions in it are byte offsets of its UTF-8 encoding.
-/

namespace MicRs

/-! ## Integers from text -/

/-- `char::to_digit` -/
def toDigit (c : Char) (radix : ℕ) : Option ℕ :=
  let value : Option ℕ :=
    if '0' ≤ c ∧ c ≤ '9' then some (c.toNat - '0'.toNat)
    else if 'a' ≤ c ∧ c ≤ 'z' then some (c.toNat - 'a'.toNat + 10)
    else if 'A' ≤ c ∧ c ≤ 'Z' then some (c.toNat - 'A'.toNat + 10)
    else none
  value.filter (· < radix)

/-- The kinds of a `ParseIntError` of an unsigned type. -/
inductive IntErrorKind
  | empty
  | invalidDigit
  | posOverflow
deriving DecidableEq, Repr

/-- A `ParseIntError` as its text. -/
def IntErrorKind.description : IntErrorKind → String
  | .empty => "cannot parse integer from empty string"
  | .invalidDigit => "invalid digit found in string"
  | .posOverflow => "number too large to fit in target type"

/-- The loop over the digits of a `u8`; the digit is checked before the
overflow. -/
def parseDigits (radix : ℕ) : ℕ → List Char → Except IntErrorKind ℕ
  | result, [] => .ok result
  | result, c :: digits =>
      match toDigit c radix with
      | none => .error .invalidDigit
      | some x =>
          if result * radix + x < 256 then
            parseDigits radix (result * radix + x) digits
          else .error .posOverflow

/-- `u8::from_str_radix` -/
def u8FromStrRadix (src : List Char) (radix : ℕ) : Except IntErrorKind UInt8 :=
  match src with
  | [] => .error .empty
  | first :: rest =>
      if (first = '+' ∨ first = '-') ∧ rest = [] then .error .invalidDigit
      -- A sign is taken off; `-` is one for signed types only.
      else if first = '+' then UInt8.ofNat <$> parseDigits radix 0 rest
      else UInt8.ofNat <$> parseDigits radix 0 src

/-! ## Slices and iterators -/

/-- `&text[lo..hi]`, which also panics off a character boundary. -/
def sliceStr (text : List Char) (lo hi : ℕ) : Rust (List Char) :=
  match Utf8.slice text lo hi with
  | some mid => .ok mid
  | none => .error .sliceOutOfBounds

/-- `iter.map(f).collect()` into a `Result`: the first error ends it. -/
def collect {α β ε : Type} (f : α → Rust (Except ε β)) :
    List α → Rust (Except ε (List β))
  | [] => return .ok []
  | x :: xs => do
      match ← f x with
      | .error e => return .error e
      | .ok b => return (← collect f xs).map (b :: ·)

/-! ## `parse_hex` -/

/-- `hex.replace(' ', "")` -/
def withoutSpaces (hex : String) : List Char :=
  hex.toList.filter (· ≠ ' ')

/-- The closure over the positions. -/
def parsePair (hex : List Char) (i : ℕ) : Rust (Except String UInt8) := do
  let pair ← sliceStr hex i (i + 2)
  return (u8FromStrRadix pair 16).mapError IntErrorKind.description

/-- An `anyhow::Error` is its text. -/
def parseHex (hex : String) : Rust (Except String (List UInt8)) :=
  let hex := withoutSpaces hex
  let len := String.utf8Len hex
  if len % 2 ≠ 0 then
    return .error "hex string has odd length"
  else
    -- `(0..len).step_by(2)`
    collect (parsePair hex) ((List.range ((len + 1) / 2)).map (2 * ·))

end MicRs
