import Mathlib.Data.List.Basic
import Mathlib.Data.Vector.Basic
import MicRs.Base.Endian

/-!
# The fragment of Rust the crate is written in

Pure Rust code either returns or panics (`Rust`). Machine arithmetic panics on
overflow in a build with overflow checks and wraps in one without; the two are
cargo's `dev` and `release` profiles (`Profile`), and the crate overrides
neither. Indexing and slicing panic out of bounds. Lengths and offsets are
`usize` in the source and naturals here: a `Vec` is shorter than `2 ^ 63`, so
no sum of them overflows.
-/

namespace MicRs

open Endian

/-! ## Panics and profiles -/

inductive Panic
  | overflow
  | indexOutOfBounds
  | sliceOutOfBounds
  | unwrapFailed
  /-- Not a Rust panic: the loop did not end within the fuel it was given. -/
  | diverged
deriving DecidableEq, Repr

abbrev Rust (α : Type) : Type := Except Panic α

inductive Profile
  | dev
  | release
deriving DecidableEq, Repr

theorem Profile.eq_dev {profile : Profile} (h : profile ≠ .release) :
    profile = .dev := by
  cases profile with
  | dev => rfl
  | release => exact absurd rfl h

/-! ## Machine arithmetic -/

/-- The outcome of a machine operation whose wrapped result is `value`;
`fits` says that no wrapping took place. -/
def arith {α : Type} (profile : Profile) (fits : Bool) (value : α) : Rust α :=
  match profile, fits with
  | .dev, false => .error .overflow
  | _, _ => .ok value

def addU32 (profile : Profile) (a b : UInt32) : Rust UInt32 :=
  arith profile (a.toNat + b.toNat < 2 ^ 32) (a + b)

def mulU32 (profile : Profile) (a b : UInt32) : Rust UInt32 :=
  arith profile (a.toNat * b.toNat < 2 ^ 32) (a * b)

def addU64 (profile : Profile) (a b : UInt64) : Rust UInt64 :=
  arith profile (a.toNat + b.toNat < 2 ^ 64) (a + b)

def subU64 (profile : Profile) (a b : UInt64) : Rust UInt64 :=
  arith profile (b.toNat ≤ a.toNat) (a - b)

def mulU64 (profile : Profile) (a b : UInt64) : Rust UInt64 :=
  arith profile (a.toNat * b.toNat < 2 ^ 64) (a * b)

@[simp] theorem arith_true {α : Type} (profile : Profile) (value : α) :
    arith profile true value = .ok value := by
  cases profile <;> rfl

@[simp] theorem arith_release {α : Type} (fits : Bool) (value : α) :
    arith .release fits value = .ok value := rfl

@[simp] theorem arith_dev_false {α : Type} (value : α) :
    arith .dev false value = .error .overflow := rfl

/-- An operation that fits does the same in every build. -/
theorem arith_of_fits {α : Type} {fits : Prop} [Decidable fits]
    (profile : Profile) (value : α) (h : fits) :
    arith profile (decide fits) value = .ok value := by
  rw [decide_eq_true h, arith_true]

theorem arith_of_not_fits {α : Type} {fits : Prop} [Decidable fits]
    (value : α) (h : ¬ fits) :
    arith .dev (decide fits) value = .error .overflow := by
  rw [decide_eq_false h, arith_dev_false]

/-- **Where a build with overflow checks goes on, one without does the
same.** -/
theorem arith_release_of_ok {α : Type} {profile : Profile} {fits : Bool}
    {value a : α} (h : arith profile fits value = .ok a) :
    arith .release fits value = .ok a := by
  cases profile <;> cases fits <;> simp_all

theorem addU32_release_of_ok {profile : Profile} {a b c : UInt32}
    (h : addU32 profile a b = .ok c) : addU32 .release a b = .ok c := by
  rw [addU32] at h ⊢
  exact arith_release_of_ok h

theorem mulU32_release_of_ok {profile : Profile} {a b c : UInt32}
    (h : mulU32 profile a b = .ok c) : mulU32 .release a b = .ok c := by
  rw [mulU32] at h ⊢
  exact arith_release_of_ok h

theorem addU64_release_of_ok {profile : Profile} {a b c : UInt64}
    (h : addU64 profile a b = .ok c) : addU64 .release a b = .ok c := by
  rw [addU64] at h ⊢
  exact arith_release_of_ok h

theorem subU64_release_of_ok {profile : Profile} {a b c : UInt64}
    (h : subU64 profile a b = .ok c) : subU64 .release a b = .ok c := by
  rw [subU64] at h ⊢
  exact arith_release_of_ok h

theorem mulU64_release_of_ok {profile : Profile} {a b c : UInt64}
    (h : mulU64 profile a b = .ok c) : mulU64 .release a b = .ok c := by
  rw [mulU64] at h ⊢
  exact arith_release_of_ok h

/-- A computation that returns went through its first part. -/
theorem bind_eq_ok {α β : Type} {x : Rust α} {f : α → Rust β} {b : β} :
    x >>= f = .ok b ↔ ∃ a, x = .ok a ∧ f a = .ok b := by
  constructor
  · intro h
    rcases x with e | a
    · cases h
    · exact ⟨a, rfl, h⟩
  · rintro ⟨a, rfl, hf⟩
    exact hf

/-! Results that fit, on the numbers the operands stand for. -/

theorem addU32_ofNat (profile : Profile) {a b : ℕ}
    (h : profile = .release ∨ a + b < 2 ^ 32) :
    addU32 profile (UInt32.ofNat a) (UInt32.ofNat b) =
      .ok (UInt32.ofNat (a + b)) := by
  have hsum : UInt32.ofNat a + UInt32.ofNat b = UInt32.ofNat (a + b) :=
    (UInt32.ofNat_add a b).symm
  rcases h with rfl | h
  · rw [addU32, arith_release, hsum]
  · rw [addU32, hsum]
    apply arith_of_fits
    simp only [UInt32.toNat_ofNat']
    omega

theorem addU64_ofNat (profile : Profile) {a b : ℕ}
    (h : profile = .release ∨ a + b < 2 ^ 64) :
    addU64 profile (UInt64.ofNat a) (UInt64.ofNat b) =
      .ok (UInt64.ofNat (a + b)) := by
  rw [addU64, ← UInt64.ofNat_add]
  rcases h with rfl | h
  · rfl
  · apply arith_of_fits
    simp only [UInt64.toNat_ofNat']
    omega

theorem mulU64_ofNat (profile : Profile) {a b : ℕ} (ha : a < 2 ^ 64)
    (hb : b < 2 ^ 64) (h : a * b < 2 ^ 64) :
    mulU64 profile (UInt64.ofNat a) (UInt64.ofNat b) =
      .ok (UInt64.ofNat (a * b)) := by
  rw [mulU64, ← UInt64.ofNat_mul]
  apply arith_of_fits
  simp only [UInt64.toNat_ofNat', Nat.mod_eq_of_lt ha, Nat.mod_eq_of_lt hb, h]

/-! ## Loops over a list -/

/-- A loop whose state after `k` rounds is known, round by round. -/
theorem foldlM_of_states {σ α : Type} {f : σ → α → Rust σ} {item : ℕ → α}
    {state : ℕ → σ} (n : ℕ)
    (h : ∀ k < n, f (state k) (item k) = .ok (state (k + 1))) :
    ((List.range n).map item).foldlM f (state 0) = .ok (state n) := by
  induction n with
  | zero => rfl
  | succ n ih =>
      have hbefore := ih fun k hk => h k (Nat.lt_succ_of_lt hk)
      rw [List.range_succ, List.map_append, List.foldlM_append, hbefore]
      simp [h n (Nat.lt_succ_self n), bind, Except.bind, pure, Except.pure]

/-- A loop that fails in round `m`. -/
theorem foldlM_error_of_states {σ α : Type} {f : σ → α → Rust σ} {item : ℕ → α}
    {state : ℕ → σ} {m n : ℕ} {p : Panic} (hmn : m < n)
    (h : ∀ k < m, f (state k) (item k) = .ok (state (k + 1)))
    (hfail : f (state m) (item m) = .error p) :
    ((List.range n).map item).foldlM f (state 0) = .error p := by
  obtain ⟨r, rfl⟩ : ∃ r, n = m + (r + 1) := ⟨n - m - 1, by omega⟩
  rw [List.range_add, List.map_append, List.foldlM_append,
    foldlM_of_states m h, List.range_succ_eq_map]
  simp [bind, Except.bind, hfail]

/-- What two loop bodies agree on when the first succeeds, the loops do. -/
theorem foldlM_of_ok {σ α : Type} {f g : σ → α → Rust σ}
    (h : ∀ s a s', f s a = .ok s' → g s a = .ok s') (xs : List α)
    (s s' : σ) (hok : xs.foldlM f s = .ok s') : xs.foldlM g s = .ok s' := by
  induction xs generalizing s with
  | nil => exact hok
  | cons x xs ih =>
      rw [List.foldlM_cons] at hok ⊢
      rcases hx : f s x with e | s₁
      · rw [hx] at hok
        cases hok
      · rw [hx] at hok
        rw [h s x s₁ hx]
        exact ih s₁ hok

/-- A loop whose body never panics does not. -/
theorem foldlM_total {σ α : Type} {f : σ → α → Rust σ}
    (h : ∀ s a, ∃ s', f s a = .ok s') (xs : List α) (s : σ) :
    ∃ s', xs.foldlM f s = .ok s' := by
  induction xs generalizing s with
  | nil => exact ⟨s, rfl⟩
  | cons x xs ih =>
      obtain ⟨s₁, hs₁⟩ := h s x
      rw [List.foldlM_cons, hs₁]
      exact ih s₁

/-- A loop that collects results, when each of them is known. -/
theorem mapM_of_ok {α β : Type} {f : α → Rust β} {g : α → β} {xs : List α}
    (h : ∀ x ∈ xs, f x = .ok (g x)) : xs.mapM f = .ok (xs.map g) := by
  induction xs with
  | nil => rfl
  | cons x xs ih =>
      rw [List.mapM_cons, h x List.mem_cons_self,
        ih fun y hy => h y (List.mem_cons_of_mem x hy)]
      rfl

/-! ## Byte strings -/

/-- `data[i]` -/
def index (data : List UInt8) (i : ℕ) : Rust UInt8 :=
  match data[i]? with
  | some b => .ok b
  | none => .error .indexOutOfBounds

/-- `data[lo..hi]` -/
def slice (data : List UInt8) (lo hi : ℕ) : Rust (List UInt8) :=
  if lo ≤ hi ∧ hi ≤ data.length then .ok ((data.drop lo).take (hi - lo))
  else .error .sliceOutOfBounds

/-- `<[u8; n]>::try_from(bytes).ok()` -/
def tryIntoArray (n : ℕ) (bytes : List UInt8) : Option (Vector UInt8 n) :=
  if h : bytes.length = n then some ⟨bytes.toArray, by simpa using h⟩ else none

/-- The byte at `i`; total, for stating what in-range accesses read. -/
def byteAt (data : List UInt8) (i : ℕ) : UInt8 := data.getD i 0

/-- The `n` bytes from `lo` on; total, for the same purpose. -/
def arrayAt (n : ℕ) (data : List UInt8) (lo : ℕ) : Vector UInt8 n :=
  Vector.ofFn fun i => byteAt data (lo + i)

theorem index_eq (data : List UInt8) (i : ℕ) (h : i < data.length) :
    index data i = .ok (byteAt data i) := by
  simp [index, byteAt, h]

theorem slice_eq {data : List UInt8} {lo hi : ℕ} (hlo : lo ≤ hi)
    (hhi : hi ≤ data.length) :
    slice data lo hi = .ok ((data.drop lo).take (hi - lo)) := by
  rw [slice, if_pos ⟨hlo, hhi⟩]

theorem toList_arrayAt {n lo : ℕ} {data : List UInt8}
    (h : lo + n ≤ data.length) :
    (arrayAt n data lo).toList = (data.drop lo).take n := by
  apply List.ext_getElem
  · simp; omega
  · intro i h₁ h₂
    have hi : i < n := by simpa using h₁
    have hlen : lo + i < data.length := by omega
    simp [arrayAt, byteAt, hlen]

theorem vector_toList_inj {α : Type} {n : ℕ} {u v : Vector α n}
    (h : u.toList = v.toList) : u = v := by
  rw [← Vector.toArray_inj]
  exact Array.toList_inj.mp h

/-- An array is read where its bytes stand. -/
theorem arrayAt_of_field {n lo : ℕ} {data : List UInt8} {v : Vector UInt8 n}
    (hlen : lo + n ≤ data.length) (h : (data.drop lo).take n = v.toList) :
    arrayAt n data lo = v :=
  vector_toList_inj ((toList_arrayAt hlen).trans h)

/-- The bytes between what is in front of them and what follows. -/
theorem field_of_append (pre mid post : List UInt8) {data : List UInt8}
    {lo n : ℕ} (hdata : data = pre ++ (mid ++ post)) (hpre : pre.length = lo)
    (hmid : mid.length = n) : (data.drop lo).take n = mid := by
  rw [hdata, List.drop_left' hpre, List.take_left' hmid]

theorem byteAt_of_append (pre post : List UInt8) {data : List UInt8}
    {b : UInt8} {i : ℕ} (hdata : data = pre ++ (b :: post)) (hpre : pre.length = i) :
    byteAt data i = b := by
  subst hpre
  simp [byteAt, hdata]

theorem tryIntoArray_of_length {n : ℕ} (bytes : List UInt8)
    (h : bytes.length = n) :
    ∃ v : Vector UInt8 n, tryIntoArray n bytes = some v ∧ v.toList = bytes := by
  refine ⟨⟨bytes.toArray, by simpa using h⟩, ?_, rfl⟩
  rw [tryIntoArray, dif_pos h]

/-- Taking an in-range field as an array reads the bytes of the field. -/
theorem tryIntoArray_field (n lo : ℕ) (data : List UInt8)
    (h : lo + n ≤ data.length) :
    tryIntoArray n ((data.drop lo).take n) = some (arrayAt n data lo) := by
  obtain ⟨v, hv, hlist⟩ := tryIntoArray_of_length (n := n)
    ((data.drop lo).take n) (by simp; omega)
  rw [hv, vector_toList_inj (hlist.trans (toList_arrayAt h).symm)]

/-- `xs.chunks(n)` -/
def chunks {α : Type} (n : ℕ) (xs : List α) : List (List α) :=
  (List.range ((xs.length + n - 1) / n)).map fun i => (xs.drop (i * n)).take n

/-! ## Integers as bytes -/

def u32FromLeBytes (bytes : Vector UInt8 4) : UInt32 :=
  UInt32.ofNat (leNat bytes.toList)

def u16FromLeBytes (bytes : Vector UInt8 2) : UInt16 :=
  UInt16.ofNat (leNat bytes.toList)

def u16ToLeBytes (x : UInt16) : List UInt8 := leBytes 2 x.toNat

def u32ToLeBytes (x : UInt32) : List UInt8 := leBytes 4 x.toNat

def u64ToLeBytes (x : UInt64) : List UInt8 := leBytes 8 x.toNat

def u32ToBeBytes (x : UInt32) : Vector UInt8 4 :=
  ⟨(beBytes 4 x.toNat).toArray, by simp⟩

@[simp] theorem length_u32ToLeBytes (x : UInt32) :
    (u32ToLeBytes x).length = 4 := length_leBytes 4 _

@[simp] theorem length_u16ToLeBytes (x : UInt16) :
    (u16ToLeBytes x).length = 2 := length_leBytes 2 _

theorem u32FromLeBytes_toLeBytes {x : UInt32} {bytes : Vector UInt8 4}
    (h : bytes.toList = u32ToLeBytes x) : u32FromLeBytes bytes = x := by
  have hx : x.toNat < 256 ^ 4 := x.toNat_lt
  rw [u32FromLeBytes, h, u32ToLeBytes, leNat_leBytes_of_lt hx,
    UInt32.ofNat_toNat]

theorem u16FromLeBytes_toLeBytes {x : UInt16} {bytes : Vector UInt8 2}
    (h : bytes.toList = u16ToLeBytes x) : u16FromLeBytes bytes = x := by
  have hx : x.toNat < 256 ^ 2 := x.toNat_lt
  rw [u16FromLeBytes, h, u16ToLeBytes, leNat_leBytes_of_lt hx,
    UInt16.ofNat_toNat]

end MicRs
