import Mathlib.Tactic.Ring
import Mathlib.Data.List.Basic

/-!
# Fixed-width byte encodings of naturals

`leBytes w n` is the little-endian encoding of `n` in exactly `w` bytes and
`leNat` reads such an encoding back; `beBytes` and `beNat` are the big-endian
pair. Every multi-byte field of a wire format is one of the four, so a parser
and a builder meet through the round trip `leNat_leBytes` and its big-endian
form.
-/

namespace MicRs.Endian

/-! ## Little-endian -/

/-- The `w` low bytes of `n`, least significant first. -/
def leBytes : ℕ → ℕ → List UInt8
  | 0, _ => []
  | w + 1, n => UInt8.ofNat n :: leBytes w (n / 256)

/-- The number whose bytes are listed, least significant first. -/
def leNat : List UInt8 → ℕ
  | [] => 0
  | b :: bs => b.toNat + 256 * leNat bs

@[simp] theorem length_leBytes (w n : ℕ) : (leBytes w n).length = w := by
  induction w generalizing n with
  | zero => rfl
  | succ w ih => simp [leBytes, ih]

theorem leNat_leBytes (w n : ℕ) : leNat (leBytes w n) = n % 256 ^ w := by
  induction w generalizing n with
  | zero => simp [leBytes, leNat, Nat.mod_one]
  | succ w ih =>
      rw [leBytes, leNat, ih, pow_succ', Nat.mod_mul, UInt8.toNat_ofNat']

theorem leNat_leBytes_of_lt {w n : ℕ} (h : n < 256 ^ w) :
    leNat (leBytes w n) = n := by
  rw [leNat_leBytes, Nat.mod_eq_of_lt h]

theorem leBytes_inj {w m n : ℕ} (hm : m < 256 ^ w) (hn : n < 256 ^ w)
    (h : leBytes w m = leBytes w n) : m = n := by
  rw [← leNat_leBytes_of_lt hm, h, leNat_leBytes_of_lt hn]

/-! ## Big-endian -/

/-- The `w` low bytes of `n`, most significant first. -/
def beBytes (w n : ℕ) : List UInt8 := (leBytes w n).reverse

/-- The number whose bytes are listed, most significant first. -/
def beNat (bs : List UInt8) : ℕ := leNat bs.reverse

@[simp] theorem length_beBytes (w n : ℕ) : (beBytes w n).length = w := by
  simp [beBytes]

theorem beNat_beBytes_of_lt {w n : ℕ} (h : n < 256 ^ w) :
    beNat (beBytes w n) = n := by
  rw [beNat, beBytes, List.reverse_reverse, leNat_leBytes_of_lt h]

theorem beBytes_inj {w m n : ℕ} (hm : m < 256 ^ w) (hn : n < 256 ^ w)
    (h : beBytes w m = beBytes w n) : m = n :=
  leBytes_inj hm hn (List.reverse_injective h)

theorem leNat_append (as bs : List UInt8) :
    leNat (as ++ bs) = leNat as + 256 ^ as.length * leNat bs := by
  induction as with
  | nil => simp [leNat]
  | cons a as ih =>
      rw [List.cons_append, leNat, leNat, ih, List.length_cons, pow_succ]
      ring

/-- Reading a concatenation: the left part counts in units of the right
part's width. -/
theorem beNat_append (as bs : List UInt8) :
    beNat (as ++ bs) = beNat as * 256 ^ bs.length + beNat bs := by
  rw [beNat, List.reverse_append, leNat_append, List.length_reverse]
  simp only [beNat]
  ring

end MicRs.Endian
