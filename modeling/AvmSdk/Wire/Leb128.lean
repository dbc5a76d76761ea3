import AvmSdk.Wire.LittleEndian

/-!
# LEB128 numbers

A number as bytes of seven bits each, lowest first, where every byte but the last has its high bit
set. A number has many such writings: the highest groups may be zero.

* `Leb128 n bs`: the bytes are a writing of the number, and `leb128_cons_iff` takes its first byte
  off.
* `Leb128Below k w n bs`: a writing of at most `k` bytes of a number of at most `w` bits.
  `ReadsLeb128 k w bs p n q`: such a writing stands in front, between the positions `p` and `q`.
* `ahead bs p stop`: what is left to read between two positions.
-/

namespace AvmSdk.Wire

/-- The bytes are a writing of the number. -/
inductive Leb128 : ℕ → Bytes → Prop
  | last {b : Byte} (h : b.toNat < 128) : Leb128 b.toNat [b]
  | more {b : Byte} {n : ℕ} {bs : Bytes} (h : 128 ≤ b.toNat) (hs : Leb128 n bs) :
      Leb128 (b.toNat % 128 + 128 * n) (b :: bs)

/-- No number is written without a byte. -/
theorem not_leb128_nil {n : ℕ} : ¬ Leb128 n [] := by
  intro h
  cases h

/-- The first byte of a writing. -/
theorem leb128_cons_iff {n : ℕ} {b : Byte} {bs : Bytes} :
    Leb128 n (b :: bs) ↔ (b.toNat < 128 ∧ bs = [] ∧ n = b.toNat) ∨
      (128 ≤ b.toNat ∧ ∃ m, Leb128 m bs ∧ n = b.toNat % 128 + 128 * m) := by
  constructor
  · intro h
    cases h with
    | last h => exact Or.inl ⟨h, rfl, rfl⟩
    | more h hs => exact Or.inr ⟨h, _, hs, rfl⟩
  · rintro (⟨h, rfl, rfl⟩ | ⟨h, m, hs, rfl⟩)
    · exact .last h
    · exact .more h hs

/-- A writing of at most `k` bytes of a number of at most `w` bits. -/
structure Leb128Below (k w n : ℕ) (bs : Bytes) : Prop where
  leb128 : Leb128 n bs
  length_le : bs.length ≤ k
  lt : n < 2 ^ w

variable {k w n : ℕ} {b : Byte} {bs : Bytes}

/-- A writing whose first byte is the last one. -/
theorem leb128Below_cons_of_lt (hb : b.toNat < 128) :
    Leb128Below (k + 1) w n (b :: bs) ↔ bs = [] ∧ n = b.toNat ∧ b.toNat < 2 ^ w := by
  constructor
  · rintro ⟨h, -, hlt⟩
    rcases leb128_cons_iff.mp h with ⟨-, rfl, rfl⟩ | ⟨hle, -⟩
    · exact ⟨rfl, rfl, hlt⟩
    · omega
  · rintro ⟨rfl, rfl, hlt⟩
    exact ⟨.last hb, Nat.le_add_left 1 k, hlt⟩

/-- A writing whose first byte is followed by others. -/
theorem leb128Below_cons_of_le (hb : 128 ≤ b.toNat) :
    Leb128Below (k + 1) (w + 7) n (b :: bs) ↔
      ∃ m, Leb128Below k w m bs ∧ n = b.toNat % 128 + 128 * m := by
  have hpow : 2 ^ (w + 7) = 2 ^ w * 128 := Nat.pow_add 2 w 7
  have hmod : b.toNat % 128 < 128 := Nat.mod_lt _ (Nat.succ_pos 127)
  constructor
  · rintro ⟨h, hlen, hlt⟩
    rcases leb128_cons_iff.mp h with ⟨hb', -⟩ | ⟨-, m, hs, rfl⟩
    · omega
    · exact ⟨m, ⟨hs, Nat.le_of_succ_le_succ hlen, by omega⟩, rfl⟩
  · rintro ⟨m, ⟨hs, hlen, hlt⟩, rfl⟩
    exact ⟨.more hb hs, Nat.succ_le_succ hlen, by omega⟩

/-- From the position `p` on, a writing of the number stands in front and ends at `q`. -/
def ReadsLeb128 (k w : ℕ) (bs : Bytes) (p n q : ℕ) : Prop :=
  ∃ u rest, bs = u ++ rest ∧ q = p + u.length ∧ Leb128Below k w n u

/-- No number is read without a byte, -/
theorem not_readsLeb128_nil {p q : ℕ} : ¬ ReadsLeb128 k w [] p n q := by
  rintro ⟨u, rest, hnil, -, h⟩
  obtain ⟨rfl, -⟩ := List.append_eq_nil_iff.mp hnil.symm
  exact not_leb128_nil h.leb128

/-- also not in no rounds. -/
theorem not_readsLeb128_zero {p q : ℕ} : ¬ ReadsLeb128 0 w bs p n q := by
  rintro ⟨u, rest, -, -, h⟩
  have hnil : u = [] := List.length_eq_zero_iff.mp (Nat.le_zero.mp h.length_le)
  rw [hnil] at h
  exact not_leb128_nil h.leb128

/-- A writing in front begins with the first byte. -/
theorem readsLeb128_cons {p q : ℕ} : ReadsLeb128 k w (b :: bs) p n q ↔
    ∃ u rest, bs = u ++ rest ∧ q = p + 1 + u.length ∧ Leb128Below k w n (b :: u) := by
  constructor
  · rintro ⟨u, rest, heq, rfl, h⟩
    cases u with
    | nil => exact absurd h.leb128 not_leb128_nil
    | cons c u =>
        rw [List.cons_append] at heq
        obtain ⟨rfl, rfl⟩ := List.cons.inj heq
        refine ⟨u, rest, rfl, ?_, h⟩
        rw [List.length_cons]
        omega
  · rintro ⟨u, rest, rfl, rfl, h⟩
    refine ⟨b :: u, rest, rfl, ?_, h⟩
    rw [List.length_cons]
    omega

/-- A number of one byte in front. -/
theorem readsLeb128_cons_of_lt {p q : ℕ} (hb : b.toNat < 128) :
    ReadsLeb128 (k + 1) w (b :: bs) p n q ↔ q = p + 1 ∧ n = b.toNat ∧ b.toNat < 2 ^ w := by
  rw [readsLeb128_cons]
  simp only [leb128Below_cons_of_lt hb]
  constructor
  · rintro ⟨u, rest, rfl, rfl, rfl, rfl, hlt⟩
    exact ⟨rfl, rfl, hlt⟩
  · rintro ⟨rfl, rfl, hlt⟩
    exact ⟨[], bs, rfl, rfl, rfl, rfl, hlt⟩

/-- One byte is not enough for a number of more bytes. -/
theorem not_readsLeb128_one {p q : ℕ} (hb : 128 ≤ b.toNat) :
    ¬ ReadsLeb128 1 w (b :: bs) p n q := by
  rw [readsLeb128_cons]
  rintro ⟨u, rest, -, -, h⟩
  have hnil : u = [] :=
    List.length_eq_zero_iff.mp (Nat.le_zero.mp (Nat.le_of_succ_le_succ h.length_le))
  rcases leb128_cons_iff.mp h.leb128 with ⟨hlt, -⟩ | ⟨-, m, hs, -⟩
  · omega
  · rw [hnil] at hs
    exact not_leb128_nil hs

/-- A number of more bytes in front. -/
theorem readsLeb128_cons_of_le {p q : ℕ} (hb : 128 ≤ b.toNat) :
    ReadsLeb128 (k + 1) (w + 7) (b :: bs) p n q ↔
      ∃ m, ReadsLeb128 k w bs (p + 1) m q ∧ n = b.toNat % 128 + 128 * m := by
  rw [readsLeb128_cons]
  simp only [leb128Below_cons_of_le hb]
  constructor
  · rintro ⟨u, rest, rfl, rfl, m, h, rfl⟩
    exact ⟨m, ⟨u, rest, rfl, rfl, h⟩, rfl⟩
  · rintro ⟨m, ⟨u, rest, rfl, rfl, h⟩, rfl⟩
    exact ⟨u, rest, rfl, rfl, m, h, rfl⟩

/-! ## What is left to read -/

variable {α : Type} {xs u rest : List α} {p stop : ℕ}

/-- What is left to read from a position on, up to another one. -/
def ahead (xs : List α) (p stop : ℕ) : List α := (xs.take stop).drop p

/-- The length of what lies ahead. -/
@[simp] theorem length_ahead (h : stop ≤ xs.length) : (ahead xs p stop).length = stop - p := by
  rw [ahead, List.length_drop, List.length_take, Nat.min_eq_left h]

/-- Nothing is left at the end. -/
theorem ahead_of_le (h : stop ≤ p) : ahead xs p stop = [] := by
  apply List.drop_eq_nil_of_le
  rw [List.length_take]
  omega

/-- Before the end there is one more item. -/
theorem ahead_of_lt (hp : p < stop) (hstop : stop ≤ xs.length) :
    ∃ a, xs[p]? = some a ∧ ahead xs p stop = a :: ahead xs (p + 1) stop := by
  have hlt : p < xs.length := hp.trans_le hstop
  have htake : p < (xs.take stop).length := by
    rw [List.length_take]
    omega
  refine ⟨xs[p], List.getElem?_eq_getElem hlt, ?_⟩
  rw [ahead, List.drop_eq_getElem_cons htake, List.getElem_take]
  rfl

/-- What is left behind a part that has been read. -/
theorem ahead_add (h : ahead xs p stop = u ++ rest) : ahead xs (p + u.length) stop = rest := by
  rw [ahead, ← List.drop_drop]
  show (ahead xs p stop).drop u.length = rest
  rw [h, List.drop_left]

/-- A part that has been read is what is left up to its own end. -/
theorem ahead_take (h : ahead xs p stop = u ++ rest) (hle : p + u.length ≤ stop) :
    ahead xs p (p + u.length) = u := by
  have htake : xs.take (p + u.length) = (xs.take stop).take (p + u.length) := by
    rw [List.take_take, Nat.min_eq_left hle]
  rw [ahead, htake, List.drop_take, Nat.add_sub_cancel_left]
  show (ahead xs p stop).take u.length = u
  rw [h, List.take_left]

/-- What is left up to a later position, and what is left from there. -/
theorem ahead_append_ahead {q : ℕ} (hp : p ≤ q) (hq : q ≤ stop) :
    ahead xs p q ++ ahead xs q stop = ahead xs p stop := by
  have hstop : stop - p = (q - p) + (stop - q) := by omega
  have hdrop : xs.drop q = (xs.drop p).drop (q - p) := by
    rw [List.drop_drop, Nat.add_sub_cancel' hp]
  rw [ahead, ahead, ahead, List.drop_take, List.drop_take, List.drop_take, hstop, hdrop,
    List.take_add]

/-- Up to the end of the whole. -/
theorem ahead_length : ahead xs p xs.length = xs.drop p := by
  rw [ahead, List.take_length]

end AvmSdk.Wire
