import Mathlib.Data.List.Basic
import Mathlib.Data.List.GetD

/-!
# Overwriting a range of a memory

* `patch memory i u`: the memory with `u` written over it from position `i` on; adjacent patches
  make one (`patch_append`), and the patched range reads back as what was written
  (`extract_patch`).
* `SameOutside i j m m'`: the two memories agree outside `[i, j)`. Ranges that do not meet `[i, j)`
  read the same (`SameOutside.extract_eq`).
* `StandsAt memory i u`: the string `u` stands at position `i`; it was written there
  (`standsAt_patch`), and other writes leave it (`StandsAt.patched`).
-/

namespace AvmSdk.Wire

variable {β : Type} {memory m m' m'' : List β} {i j : ℕ} {u v : List β}

/-- Write over a memory from a position on. -/
def patch (memory : List β) (i : ℕ) (u : List β) : List β :=
  memory.take i ++ (u ++ memory.drop (i + u.length))

/-- Writing inside the memory keeps its size. -/
theorem length_patch (h : i + u.length ≤ memory.length) :
    (patch memory i u).length = memory.length := by
  simp only [patch, List.length_append, List.length_take, List.length_drop]
  omega

/-- Writing nothing changes nothing. -/
@[simp] theorem patch_nil : patch memory i [] = memory := List.take_append_drop i memory

/-- Two writes, the second behind the first, are one. -/
theorem patch_append (h : i ≤ memory.length) :
    patch (patch memory i u) (i + u.length) v = patch memory i (u ++ v) := by
  have hlen : (memory.take i ++ u).length = i + u.length := by
    rw [List.length_append, List.length_take, Nat.min_eq_left h]
  have hfront : patch memory i u = (memory.take i ++ u) ++ memory.drop (i + u.length) := by
    rw [patch, List.append_assoc]
  rw [hfront, patch, List.take_left' hlen, ← List.drop_drop, List.drop_left' hlen, List.drop_drop,
    patch, List.length_append, Nat.add_assoc, List.append_assoc, List.append_assoc]

/-- The same with the position of the second write. -/
theorem patch_patch (hj : i + u.length = j) (h : i ≤ memory.length) :
    patch (patch memory i u) j v = patch memory i (u ++ v) := by
  rw [← hj, patch_append h]

/-- A write over a part of its length replaces the part. -/
theorem patch_middle {front part rest : List β} (hi : i = front.length)
    (hu : u.length = part.length) : patch (front ++ (part ++ rest)) i u = front ++ (u ++ rest) := by
  have hdrop : (part ++ rest).drop part.length = rest := List.drop_left
  rw [patch, hi, hu, List.take_left, ← List.drop_drop, List.drop_left, hdrop]

/-- What was written is what is read. -/
theorem extract_patch (h : i ≤ memory.length) :
    (patch memory i u).extract i (i + u.length) = u := by
  have hlen : (memory.take i).length = i := by rw [List.length_take, Nat.min_eq_left h]
  rw [List.extract_eq_take_drop, patch, List.drop_left' hlen, Nat.add_sub_cancel_left,
    List.take_left]

/-! ## What a write leaves alone -/

/-- Two memories of one size that agree outside `[i, j)`. -/
structure SameOutside (i j : ℕ) (m m' : List β) : Prop where
  length_eq : m'.length = m.length
  getElem?_eq : ∀ k, k < i ∨ j ≤ k → m'[k]? = m[k]?

/-- Nothing is changed by doing nothing. -/
theorem SameOutside.refl (i j : ℕ) (m : List β) : SameOutside i j m m := ⟨rfl, fun _ _ => rfl⟩

/-- Two changes of the same range. -/
theorem SameOutside.trans (h : SameOutside i j m m') (h' : SameOutside i j m' m'') :
    SameOutside i j m m'' :=
  ⟨h'.length_eq.trans h.length_eq,
    fun k hk => (h'.getElem?_eq k hk).trans (h.getElem?_eq k hk)⟩

/-- A larger range leaves less outside. -/
theorem SameOutside.mono {i' j' : ℕ} (h : SameOutside i j m m') (hi : i' ≤ i) (hj : j ≤ j') :
    SameOutside i' j' m m' :=
  ⟨h.length_eq, fun k hk => h.getElem?_eq k (by omega)⟩

/-- A write leaves what is outside its range. -/
theorem sameOutside_patch (h : i + u.length ≤ memory.length) :
    SameOutside i (i + u.length) memory (patch memory i u) := by
  have hlen : (memory.take i).length = i := by
    rw [List.length_take]
    omega
  refine ⟨length_patch h, fun k hk => ?_⟩
  rw [patch]
  rcases hk with hlt | hle
  · rw [List.getElem?_append_left (by omega), List.getElem?_take_of_lt hlt]
  · rw [List.getElem?_append_right (by omega), List.getElem?_append_right (by omega),
      List.getElem?_drop]
    congr 1
    omega

/-- A range that does not meet the written one reads the same. -/
theorem SameOutside.extract_eq (h : SameOutside i j m m') {a b : ℕ} (hab : b ≤ i ∨ j ≤ a) :
    m'.extract a b = m.extract a b := by
  apply List.ext_getElem?
  intro k
  rw [List.extract_eq_take_drop, List.extract_eq_take_drop]
  by_cases hk : k < b - a
  · rw [List.getElem?_take_of_lt hk, List.getElem?_take_of_lt hk, List.getElem?_drop,
      List.getElem?_drop]
    exact h.getElem?_eq _ (by omega)
  · rw [List.getElem?_take_eq_none (by omega), List.getElem?_take_eq_none (by omega)]

/-! ## Strings in place -/

/-- A string stands in a memory, from a position on. -/
def StandsAt (memory : List β) (i : ℕ) (u : List β) : Prop :=
  i + u.length ≤ memory.length ∧ memory.extract i (i + u.length) = u

/-- A memory stands in itself. -/
theorem standsAt_self : StandsAt memory 0 memory := by
  refine ⟨Nat.le_of_eq (Nat.zero_add _), ?_⟩
  rw [List.extract_eq_take_drop, Nat.zero_add, Nat.sub_zero, List.drop_zero, List.take_length]

/-- What was written stands there. -/
theorem standsAt_patch (h : i + u.length ≤ memory.length) : StandsAt (patch memory i u) i u := by
  refine ⟨?_, extract_patch (by omega)⟩
  rw [length_patch h]
  exact h

/-- What stands inside a string that stands in a memory stands in the memory. -/
theorem StandsAt.trans (hu : StandsAt memory i u) (hv : StandsAt u j v) :
    StandsAt memory (i + j) v := by
  obtain ⟨hfits, hu⟩ := hu
  obtain ⟨hfits', hv⟩ := hv
  have hlen : (i + j + v.length) - (i + j) = v.length := by omega
  have hmin : min v.length (u.length - j) = v.length := by omega
  refine ⟨by omega, ?_⟩
  rw [← hu, List.extract_eq_take_drop, List.extract_eq_take_drop, Nat.add_sub_cancel_left,
    Nat.add_sub_cancel_left, List.drop_take, List.take_take, List.drop_drop, hmin] at hv
  rw [List.extract_eq_take_drop, hlen]
  exact hv

/-- A memory holds one string of each length at a position. -/
theorem StandsAt.eq_of_length (hu : StandsAt memory i u) (hv : StandsAt memory i v)
    (hlen : u.length = v.length) : u = v := by
  rw [← hu.2, ← hv.2, hlen]

/-- Two strings, the second behind the first, are one. -/
theorem StandsAt.append (hu : StandsAt memory i u) (hv : StandsAt memory (i + u.length) v) :
    StandsAt memory i (u ++ v) := by
  obtain ⟨-, hu⟩ := hu
  obtain ⟨hfits, hv⟩ := hv
  rw [List.extract_eq_take_drop, Nat.add_sub_cancel_left] at hu hv
  rw [← List.drop_drop] at hv
  refine ⟨by rw [List.length_append, ← Nat.add_assoc]; exact hfits, ?_⟩
  rw [List.extract_eq_take_drop, Nat.add_sub_cancel_left, List.length_append, List.take_add, hu, hv]

/-- A write leaves a string that it does not meet. -/
theorem StandsAt.patched (hv : StandsAt memory j v) (h : i + u.length ≤ memory.length)
    (hapart : j + v.length ≤ i ∨ i + u.length ≤ j) : StandsAt (patch memory i u) j v := by
  refine ⟨?_, ?_⟩
  · rw [length_patch h]
    exact hv.1
  · rw [(sameOutside_patch h).extract_eq hapart]
    exact hv.2

/-- A memory of one value holds it everywhere. -/
theorem standsAt_replicate {x : β} {n : ℕ} (h : i + n ≤ j) :
    StandsAt (List.replicate j x) i (List.replicate n x) := by
  have hn : n ≤ j - i := by omega
  refine ⟨?_, ?_⟩
  · rw [List.length_replicate, List.length_replicate]
    exact h
  · rw [List.extract_eq_take_drop, List.drop_replicate, List.take_replicate, List.length_replicate,
      Nat.add_sub_cancel_left, Nat.min_eq_left hn]

end AvmSdk.Wire
