import Mathlib.Tactic.Ring
import Mathlib.Data.List.Basic

/-!
# Little-endian words

The bytes of a fixed-width word, least significant first, and back.

* `leBytes n x` / `leNat bs` on naturals: `leNat (leBytes n x) = x % 256 ^ n`
  (`leNat_leBytes`) and `leBytes bs.length (leNat bs) = bs` (`leBytes_leNat`).
* `toLe x` / `ofLe w bs` on words `x : BitVec w`: `ofLe_toLe` and `toLe_ofLe`, for every width
  that is a whole number of bytes.
-/

namespace AvmSdk.Wire

/-- A byte. -/
abbrev Byte := BitVec 8

/-- A byte string. -/
abbrev Bytes := List Byte

/-- An array of `n` bytes. -/
abbrev BytesN (n : ℕ) := { bs : Bytes // bs.length = n }

/-- The length of a byte string of fixed length. -/
@[simp] theorem length_bytesN {n : ℕ} (a : BytesN n) : a.val.length = n := a.property

/-- The array of `n` zero bytes. -/
def zeros (n : ℕ) : BytesN n := ⟨List.replicate n 0, List.length_replicate⟩

/-- The zero bytes are blank. -/
theorem zeros_blank (n : ℕ) : (zeros n).val = List.replicate (zeros n).val.length 0 := by
  rw [(zeros n).property]
  rfl

/-! ## Naturals -/

/-- The `n` low bytes of `x`, least significant first. -/
def leBytes : ℕ → ℕ → Bytes
  | 0, _ => []
  | n + 1, x => BitVec.ofNat 8 x :: leBytes n (x / 256)

/-- The natural number with the given little-endian bytes. -/
def leNat : Bytes → ℕ
  | [] => 0
  | b :: bs => b.toNat + 256 * leNat bs

/-- `leBytes n` writes `n` bytes. -/
@[simp] theorem length_leBytes (n x : ℕ) : (leBytes n x).length = n := by
  induction n generalizing x with
  | zero => rfl
  | succ n ih => simp [leBytes, ih]

/-- Reading back `n` bytes of `x` gives `x` modulo `256 ^ n`. -/
theorem leNat_leBytes (n x : ℕ) : leNat (leBytes n x) = x % 256 ^ n := by
  induction n generalizing x with
  | zero => simp [leBytes, leNat, Nat.mod_one]
  | succ n ih =>
      rw [leBytes, leNat, ih, BitVec.toNat_ofNat, pow_succ' 256]
      exact Nat.mod_mul.symm

/-- A value below `256 ^ n` survives the round trip through `n` bytes. -/
theorem leNat_leBytes_of_lt {n x : ℕ} (h : x < 256 ^ n) : leNat (leBytes n x) = x := by
  rw [leNat_leBytes, Nat.mod_eq_of_lt h]

/-- The value of a byte string is bounded by its length. -/
theorem leNat_lt (bs : Bytes) : leNat bs < 256 ^ bs.length := by
  induction bs with
  | nil => simp [leNat]
  | cons b bs ih =>
      have hb : b.toNat < 256 := b.isLt
      rw [leNat, List.length_cons, pow_succ]
      omega

/-- Every byte string is the little-endian writing of its value. -/
theorem leBytes_leNat (bs : Bytes) : leBytes bs.length (leNat bs) = bs := by
  induction bs with
  | nil => rfl
  | cons b bs ih =>
      have hb : b.toNat < 256 := b.isLt
      rw [List.length_cons, leBytes, leNat]
      congr 1
      · apply BitVec.eq_of_toNat_eq
        rw [BitVec.toNat_ofNat, Nat.add_mul_mod_self_left, Nat.mod_eq_of_lt hb]
      · rw [Nat.add_mul_div_left _ _ (by norm_num), Nat.div_eq_of_lt hb, Nat.zero_add, ih]

/-- `leBytes n` is injective below `256 ^ n`. -/
theorem leBytes_inj {n x y : ℕ} (hx : x < 256 ^ n) (hy : y < 256 ^ n)
    (h : leBytes n x = leBytes n y) : x = y := by
  have := congrArg leNat h
  rwa [leNat_leBytes_of_lt hx, leNat_leBytes_of_lt hy] at this

/-! ## Fixed-width words -/

variable {w : ℕ}

/-- The bytes of a word, least significant first. -/
def toLe (x : BitVec w) : Bytes := leBytes (w / 8) x.toNat

/-- The word of width `w` with the given little-endian bytes. -/
def ofLe (w : ℕ) (bs : Bytes) : BitVec w := BitVec.ofNat w (leNat bs)

/-- A word of `w` bits takes `w / 8` bytes. -/
@[simp] theorem length_toLe (x : BitVec w) : (toLe x).length = w / 8 := by
  simp [toLe]

/-- A word of a whole number of bytes is below `256` to that number. -/
theorem toNat_lt_of_dvd (hw : 8 ∣ w) (x : BitVec w) : x.toNat < 256 ^ (w / 8) := by
  obtain ⟨n, rfl⟩ := hw
  have h : (256 : ℕ) ^ (8 * n / 8) = 2 ^ (8 * n) := by
    rw [Nat.mul_div_cancel_left n (by norm_num), pow_mul]
    norm_num
  rw [h]
  exact x.isLt

/-- Writing a word and reading it back gives the word. -/
theorem ofLe_toLe (hw : 8 ∣ w) (x : BitVec w) : ofLe w (toLe x) = x := by
  apply BitVec.eq_of_toNat_eq
  rw [ofLe, toLe, leNat_leBytes_of_lt (toNat_lt_of_dvd hw x), BitVec.toNat_ofNat,
    Nat.mod_eq_of_lt x.isLt]

/-- Reading a byte string of the width's length and writing it back gives the byte string. -/
theorem toLe_ofLe {bs : Bytes} (h : 8 * bs.length = w) : toLe (ofLe w bs) = bs := by
  subst h
  have hlt : leNat bs < 2 ^ (8 * bs.length) := by
    have hpow : (2 : ℕ) ^ (8 * bs.length) = 256 ^ bs.length := by
      rw [pow_mul]
      norm_num
    rw [hpow]
    exact leNat_lt bs
  rw [toLe, ofLe, BitVec.toNat_ofNat, Nat.mod_eq_of_lt hlt,
    Nat.mul_div_cancel_left _ (by norm_num), leBytes_leNat]

/-- Writing words of one width is injective. -/
theorem toLe_inj (hw : 8 ∣ w) {x y : BitVec w} (h : toLe x = toLe y) : x = y := by
  rw [← ofLe_toLe hw x, ← ofLe_toLe hw y, h]

/-- The bytes of the word of a natural number in range. -/
theorem toLe_ofNat {n x : ℕ} (hx : x < 2 ^ (8 * n)) :
    toLe (BitVec.ofNat (8 * n) x) = leBytes n x := by
  rw [toLe, BitVec.toNat_ofNat, Nat.mod_eq_of_lt hx, Nat.mul_div_cancel_left n (by norm_num)]

example : toLe (0x01020304 : BitVec 32) = [4, 3, 2, 1] := by decide

end AvmSdk.Wire
