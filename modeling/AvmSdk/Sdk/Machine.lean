import AvmSdk.Wire.LittleEndian
import AvmSdk.Wire.Checked
import Mathlib.Tactic.SplitIfs

/-!
# The machine under the guest crate

The Rust types and arithmetic that the guest crate is written in.

* `U8` to `U128` are the fixed-width unsigned integers, `Bytes32` is `[u8; 32]`.
* `usize` is a natural number with the checks the code makes on it: `Target.usizeMax` is its
  largest value on the compilation target, which is a parameter of everything below. The crate is
  built for 32-bit WASM and, in its own tests, for 64-bit hosts.
* `Slice` is a byte string that a Rust slice can hold: its length is a `usize`.
-/

namespace AvmSdk.Sdk

open Wire

/-- `u8`. -/
abbrev U8 := BitVec 8

/-- `u16`. -/
abbrev U16 := BitVec 16

/-- `u32`. -/
abbrev U32 := BitVec 32

/-- `u64`. -/
abbrev U64 := BitVec 64

/-- `u128`. -/
abbrev U128 := BitVec 128

/-- `[u8; 32]`. -/
abbrev Bytes32 := BytesN 32

instance : LawfulBEq Bytes32 := inferInstance

/-- The compilation target: the largest `usize`, on a target of at least 32 bits. -/
class Target where
  /-- `usize::MAX`. -/
  usizeMax : ℕ
  u32_le_usizeMax : 2 ^ 32 - 1 ≤ usizeMax

/-- The target of a deployed contract. -/
@[reducible] def Target.wasm32 : Target := ⟨2 ^ 32 - 1, le_rfl⟩

export Target (usizeMax)

section

variable [Target]

/-- `usize::checked_add`. -/
def checkedAdd (a b : ℕ) : Option ℕ := if a + b ≤ usizeMax then some (a + b) else none

/-- `usize::checked_mul`. -/
def checkedMul (a b : ℕ) : Option ℕ := if a * b ≤ usizeMax then some (a * b) else none

/-- `usize::saturating_add`. -/
def saturatingAdd (a b : ℕ) : ℕ := min (a + b) usizeMax

/-- Checked addition succeeds exactly when the sum is a `usize`. -/
@[simp] theorem checkedAdd_eq_some {a b c : ℕ} :
    checkedAdd a b = some c ↔ a + b ≤ usizeMax ∧ a + b = c := by
  unfold checkedAdd
  split_ifs with h <;> simp [h]

/-- Checked multiplication succeeds exactly when the product is a `usize`. -/
@[simp] theorem checkedMul_eq_some {a b c : ℕ} :
    checkedMul a b = some c ↔ a * b ≤ usizeMax ∧ a * b = c := by
  unfold checkedMul
  split_ifs with h <;> simp [h]

/-- `usize::try_from` on a `u32`. -/
def usizeTryFrom (x : U32) : Option ℕ := if x.toNat ≤ usizeMax then some x.toNat else none

/-- Every `u32` is a `usize`. -/
@[simp] theorem usizeTryFrom_eq (x : U32) : usizeTryFrom x = some x.toNat := by
  have := Target.u32_le_usizeMax
  unfold usizeTryFrom
  rw [if_pos (by omega)]

/-- A byte string held by a Rust slice or vector: its length is a `usize`. -/
structure Slice where
  /-- The bytes. -/
  bytes : Bytes
  length_le : bytes.length ≤ usizeMax

end

/-- `checked_add` on an integer type of `w` bits. -/
def wordCheckedAdd {w : ℕ} (x y : BitVec w) : Option (BitVec w) :=
  if x.toNat + y.toNat < 2 ^ w then some (x + y) else none

/-- `saturating_add` on an integer type of `w` bits. -/
def wordSaturatingAdd {w : ℕ} (x y : BitVec w) : BitVec w :=
  if x.toNat + y.toNat < 2 ^ w then x + y else BitVec.allOnes w

/-- A checked sum is the exact sum. -/
theorem wordCheckedAdd_eq_some {w : ℕ} {x y z : BitVec w} :
    wordCheckedAdd x y = some z ↔ x.toNat + y.toNat = z.toNat := by
  have hz := z.isLt
  unfold wordCheckedAdd
  split_ifs with h
  · rw [Option.some.injEq, ← BitVec.toNat_inj, BitVec.toNat_add, Nat.mod_eq_of_lt h]
  · simp only [false_iff]
    omega

/-- Without overflow, checked addition is addition. -/
theorem wordCheckedAdd_of_lt {w : ℕ} {x y : BitVec w} (h : x.toNat + y.toNat < 2 ^ w) :
    wordCheckedAdd x y = some (x + y) := by
  rw [wordCheckedAdd, if_pos h]

/-- `checked_sub` on an integer type of `w` bits. -/
def wordCheckedSub {w : ℕ} (x y : BitVec w) : Option (BitVec w) :=
  if y.toNat ≤ x.toNat then some (x - y) else none

/-- A checked difference is the exact difference. -/
theorem wordCheckedSub_eq_some {w : ℕ} {x y z : BitVec w} :
    wordCheckedSub x y = some z ↔ x.toNat = y.toNat + z.toNat := by
  have hx := x.isLt
  have hz := z.isLt
  unfold wordCheckedSub
  split_ifs with h
  · rw [Option.some.injEq, ← BitVec.toNat_inj, BitVec.toNat_sub_of_le h]
    omega
  · simp only [false_iff]
    omega

/-- `checked_mul` on an integer type of `w` bits. -/
def wordCheckedMul {w : ℕ} (x y : BitVec w) : Option (BitVec w) :=
  if x.toNat * y.toNat < 2 ^ w then some (x * y) else none

/-- A checked product is the exact product. -/
theorem wordCheckedMul_eq_some {w : ℕ} {x y z : BitVec w} :
    wordCheckedMul x y = some z ↔ x.toNat * y.toNat = z.toNat := by
  have hz := z.isLt
  unfold wordCheckedMul
  split_ifs with h
  · rw [Option.some.injEq, ← BitVec.toNat_inj, BitVec.toNat_mul, Nat.mod_eq_of_lt h]
  · simp only [false_iff]
    omega

/-- `checked_div` on an integer type of `w` bits. -/
def wordCheckedDiv {w : ℕ} (x y : BitVec w) : Option (BitVec w) := if y = 0 then none else some (x / y)

/-- `max` on an integer type of `w` bits. -/
def wordMax {w : ℕ} (x y : BitVec w) : BitVec w := if x ≤ y then y else x

/-- The larger word is the larger number. -/
@[simp] theorem toNat_wordMax {w : ℕ} (x y : BitVec w) :
    (wordMax x y).toNat = max x.toNat y.toNat := by
  unfold wordMax
  by_cases h : x ≤ y
  · rw [if_pos h]
    exact (max_eq_right (BitVec.le_def.mp h)).symm
  · rw [if_neg h]
    exact (max_eq_left (BitVec.le_def.mp (BitVec.le_of_lt (BitVec.not_le.mp h)))).symm

/-- `min` on an integer type of `w` bits. -/
def wordMin {w : ℕ} (x y : BitVec w) : BitVec w := if x ≤ y then x else y

/-- `iter().min()` over integers of `w` bits. -/
def wordsMin {w : ℕ} : List (BitVec w) → Option (BitVec w)
  | [] => none
  | x :: xs => some (xs.foldl wordMin x)

/-- `count_ones` on an integer type of `w` bits. -/
def countOnes {w : ℕ} (x : BitVec w) : ℕ := (List.range w).countP (x.getLsbD ·)

/-- Two bits are set, one of them other than a given one. -/
theorem exists_bit_ne_of_two_le_countOnes {w : ℕ} {x : BitVec w} (h : 2 ≤ countOnes x) (i : ℕ) :
    ∃ j < w, j ≠ i ∧ x.getLsbD j = true := by
  by_contra hno
  push Not at hno
  have hsub : ((List.range w).filter (x.getLsbD ·)) ⊆ [i] := by
    intro j hj
    obtain ⟨hmem, hbit⟩ := List.mem_filter.mp hj
    by_contra hne
    exact hno j (List.mem_range.mp hmem) (fun he => hne (he ▸ List.mem_singleton_self i)) hbit
  have hle := List.Nodup.length_le_of_subset (List.nodup_range.filter _) hsub
  rw [countOnes, List.countP_eq_length_filter] at h
  rw [List.length_singleton] at hle
  omega

/-- `saturating_add` below the largest value is addition. -/
theorem toNat_wordSaturatingAdd {w : ℕ} {x y : BitVec w} (h : x.toNat + y.toNat < 2 ^ w) :
    (wordSaturatingAdd x y).toNat = x.toNat + y.toNat := by
  rw [wordSaturatingAdd, if_pos h, BitVec.toNat_add, Nat.mod_eq_of_lt h]

/-- `slice.get(start..stop)`. -/
def getRange {α : Type} (xs : List α) (start stop : ℕ) : Option (List α) :=
  if start ≤ stop ∧ stop ≤ xs.length then some (xs.extract start stop) else none

/-- A range of a slice is there exactly when it is inside it. -/
theorem getRange_eq_some {α : Type} {xs ys : List α} {start stop : ℕ} :
    getRange xs start stop = some ys ↔
      (start ≤ stop ∧ stop ≤ xs.length) ∧ xs.extract start stop = ys := by
  unfold getRange
  split_ifs with h <;> simp [h]

/-- The range that follows a known front. -/
theorem getRange_append {α : Type} (xs ys zs : List α) :
    getRange (xs ++ (ys ++ zs)) xs.length (xs.length + ys.length) = some ys := by
  rw [getRange_eq_some]
  refine ⟨⟨by omega, by simp only [List.length_append]; omega⟩, ?_⟩
  rw [List.extract_eq_take_drop, List.drop_left, Nat.add_sub_cancel_left, List.take_left]

/-- A range behind a known front. -/
theorem getRange_skip {α : Type} {xs ys : List α} {start stop : ℕ} (h : xs.length ≤ start)
    (hle : start ≤ stop) :
    getRange (xs ++ ys) start stop = getRange ys (start - xs.length) (stop - xs.length) := by
  have hsub : stop - xs.length - (start - xs.length) = stop - start := by omega
  unfold getRange
  rw [List.extract_eq_take_drop, List.extract_eq_take_drop, List.drop_append,
    List.drop_of_length_le h, List.nil_append, hsub, List.length_append]
  congr 1
  exact propext ⟨fun ⟨_, _⟩ => ⟨by omega, by omega⟩, fun ⟨_, _⟩ => ⟨by omega, by omega⟩⟩

/-- What stands at a position is the range from there. -/
theorem getRange_of_drop_eq {α : Type} {bs u t : List α} {i : ℕ} (h : u ++ t = bs.drop i)
    (hu : 0 < u.length) :
    i + u.length ≤ bs.length ∧ getRange bs i (i + u.length) = some u := by
  have hlen := congrArg List.length h
  rw [List.length_append, List.length_drop] at hlen
  refine ⟨by omega, ?_⟩
  rw [getRange_eq_some]
  refine ⟨⟨by omega, by omega⟩, ?_⟩
  rw [List.extract_eq_take_drop, ← h, Nat.add_sub_cancel_left, List.take_left]

/-- `slice.windows(2)`. -/
def windows2 {α : Type} (xs : List α) : List (α × α) := xs.zip xs.tail

/-- `slice.chunks_exact(n)`: the chunks and the `remainder()`. -/
def chunksExact {α : Type} (n : ℕ) (xs : List α) : List (List α) × List α :=
  ((List.range (xs.length / n)).map (fun i => xs.extract (i * n) (i * n + n)),
    xs.drop (xs.length / n * n))

/-- The chunks and the remainder make up the slice. -/
theorem flatten_chunksExact {α : Type} (n : ℕ) (xs : List α) :
    (chunksExact n xs).1.flatten ++ (chunksExact n xs).2 = xs := by
  have htake : ∀ k, ((List.range k).map (fun i => xs.extract (i * n) (i * n + n))).flatten =
      xs.take (k * n) := by
    intro k
    induction k with
    | zero => simp
    | succ k ih =>
        rw [List.range_succ, List.map_append, List.flatten_append, ih, List.map_singleton,
          List.flatten_singleton, List.extract_eq_take_drop, Nat.add_sub_cancel_left,
          Nat.succ_mul, List.take_add]
  rw [chunksExact, htake, List.take_append_drop]

/-- The first chunk of a slice that begins with a chunk. -/
theorem chunksExact_append {α : Type} {n : ℕ} {chunk xs : List α} (hn : 0 < n)
    (h : chunk.length = n) : (chunksExact n (chunk ++ xs)).1 = chunk :: (chunksExact n xs).1 := by
  have hcount : (chunk ++ xs).length / n = xs.length / n + 1 := by
    rw [List.length_append, h, Nat.add_comm, Nat.add_div_right _ hn]
  have hfirst : (chunk ++ xs).extract (0 * n) (0 * n + n) = chunk := by
    rw [List.extract_eq_take_drop, Nat.zero_mul, List.drop_zero, Nat.zero_add, Nat.sub_zero, ← h,
      List.take_left]
  have hrest (i : ℕ) : (chunk ++ xs).extract ((i + 1) * n) ((i + 1) * n + n) =
      xs.extract (i * n) (i * n + n) := by
    have hstart : (i + 1) * n = chunk.length + i * n := by rw [h, Nat.succ_mul, Nat.add_comm]
    rw [List.extract_eq_take_drop, List.extract_eq_take_drop, hstart, Nat.add_sub_cancel_left,
      Nat.add_sub_cancel_left, ← List.drop_drop, List.drop_left]
  unfold chunksExact
  dsimp only
  rw [hcount, List.range_succ_eq_map, List.map_cons, List.map_map, hfirst]
  exact congrArg (chunk :: ·) (List.map_congr_left fun i _ => hrest i)

/-- The windows of a list relate its neighbours. -/
theorem forall_mem_windows2 {α : Type} (R : α → α → Prop) (xs : List α) :
    (∀ pair ∈ windows2 xs, R pair.1 pair.2) ↔ xs.IsChain R := by
  induction xs with
  | nil => simp [windows2]
  | cons x xs ih =>
      cases xs with
      | nil => simp [windows2]
      | cons y ys =>
          rw [List.isChain_cons_cons, ← ih]
          exact List.forall_mem_cons

/-- `u16::try_from` on a `usize`, as an integer type of `w` bits. -/
def tryFromUsize (w : ℕ) (n : ℕ) : Option (BitVec w) :=
  if n < 2 ^ w then some (BitVec.ofNat w n) else none

/-- A `usize` fits a narrower integer type exactly when it is in range. -/
theorem tryFromUsize_eq_some {w n : ℕ} {x : BitVec w} :
    tryFromUsize w n = some x ↔ n < 2 ^ w ∧ BitVec.ofNat w n = x := by
  unfold tryFromUsize
  split_ifs with h <;> simp [h]

/-- `<[u8; N]>::try_from` on a slice. -/
def tryIntoArray (n : ℕ) (bs : Bytes) : Option (BytesN n) :=
  if h : bs.length = n then some ⟨bs, h⟩ else none

/-- A slice is an array of `N` bytes exactly when it has `N` bytes. -/
@[simp] theorem tryIntoArray_eq_some {n : ℕ} {bs : Bytes} {a : BytesN n} :
    tryIntoArray n bs = some a ↔ bs = a.val := by
  unfold tryIntoArray
  split_ifs with h
  · rw [Option.some.injEq, Subtype.ext_iff]
  · simp only [false_iff]
    rintro rfl
    exact h a.property

end AvmSdk.Sdk
