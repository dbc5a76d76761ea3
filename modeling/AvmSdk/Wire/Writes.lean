import AvmSdk.Wire.Layout
import AvmSdk.Wire.Patch
import Mathlib.Algebra.Order.Group.Multiset
import Mathlib.Data.List.FinRange
import Mathlib.Data.List.Pairwise

/-!
# Filling a buffer

A buffer of one value that is filled by writes at given positions, in any order. A write outside the
buffer stops the program.

* `fill`: the writes one after the other. `fill_spec`: writes inside the buffer that do not meet
  succeed, all of them stand in the result, and what they do not meet still stands there.
* `placed`: strings one behind the other, each at its position.
* `fill_blank`: writes that are these strings but for some that the buffer holds already, in any
  sequence, leave the strings one behind the other. `fill_table`: the same for a front and a table of
  rows.
-/

namespace AvmSdk.Wire

variable {β : Type} {memory : List β} {i : ℕ} {w w' : ℕ × List β} {ws vs : List (ℕ × List β)}

/-- Write over a range of a buffer. -/
def fillAt (memory : List β) (w : ℕ × List β) : Option (List β) :=
  if w.1 + w.2.length ≤ memory.length then some (patch memory w.1 w.2) else none

/-- Writes one after the other. -/
def fill (memory : List β) (ws : List (ℕ × List β)) : Option (List β) :=
  ws.foldlM fillAt memory

/-- Two writes do not meet. -/
def Apart (w w' : ℕ × List β) : Prop := w.1 + w.2.length ≤ w'.1 ∨ w'.1 + w'.2.length ≤ w.1

/-- It does not matter which window is named first. -/
theorem Apart.symm (h : Apart w w') : Apart w' w := Or.symm h

/-- What the writes leave behind. -/
structure Written (memory : List β) (ws : List (ℕ × List β)) (m : List β) : Prop where
  length_eq : m.length = memory.length
  stands : ∀ w ∈ ws, StandsAt m w.1 w.2
  kept : ∀ i u, StandsAt memory i u → (∀ w ∈ ws, Apart (i, u) w) → StandsAt m i u

/-- The first write, then the others. -/
theorem fill_cons (h : w.1 + w.2.length ≤ memory.length) :
    fill memory (w :: ws) = fill (patch memory w.1 w.2) ws := by
  unfold fill
  rw [List.foldlM_cons, fillAt, if_pos h]
  rfl

/-- **Writes that do not meet** succeed, and all of them stand in the result. -/
theorem fill_spec (hfits : ∀ w ∈ ws, w.1 + w.2.length ≤ memory.length)
    (hapart : ws.Pairwise Apart) : ∃ m, fill memory ws = some m ∧ Written memory ws m := by
  induction ws generalizing memory with
  | nil => exact ⟨memory, rfl, rfl, nofun, fun _ _ h _ => h⟩
  | cons w ws ih =>
      rw [List.forall_mem_cons] at hfits
      rw [List.pairwise_cons] at hapart
      have hlen : (patch memory w.1 w.2).length = memory.length := length_patch hfits.1
      obtain ⟨m, hm, hlength, hstands, hkept⟩ := ih (fun v hv => hlen ▸ hfits.2 v hv) hapart.2
      refine ⟨m, (fill_cons hfits.1).trans hm, hlength.trans hlen, fun v hv => ?_,
        fun i u hu hfree => ?_⟩
      · rcases List.mem_cons.mp hv with rfl | hv
        · exact hkept _ _ (standsAt_patch hfits.1) hapart.1
        · exact hstands v hv
      · rw [List.forall_mem_cons] at hfree
        exact hkept i u (hu.patched hfits.1 hfree.1) hfree.2

/-- Writes inside a buffer, without the tests. -/
theorem fill_eq_patches (hfits : ∀ w ∈ ws, w.1 + w.2.length ≤ memory.length) :
    fill memory ws = some (ws.foldl (fun m w => patch m w.1 w.2) memory) := by
  induction ws generalizing memory with
  | nil => rfl
  | cons w ws ih =>
      rw [List.forall_mem_cons] at hfits
      have hlen : (patch memory w.1 w.2).length = memory.length := length_patch hfits.1
      rw [fill_cons hfits.1, List.foldl_cons]
      exact ih fun v hv => hlen ▸ hfits.2 v hv

/-- Writes that do not meet, without the tests. -/
theorem written_patches (hfits : ∀ w ∈ ws, w.1 + w.2.length ≤ memory.length)
    (hapart : ws.Pairwise Apart) :
    Written memory ws (ws.foldl (fun m w => patch m w.1 w.2) memory) := by
  obtain ⟨m, hm, hwritten⟩ := fill_spec hfits hapart
  rw [fill_eq_patches hfits, Option.some.injEq] at hm
  rw [hm]
  exact hwritten

/-! ## Strings in place -/

/-- Strings one behind the other, from a position on, each with its own position. -/
def placed (i : ℕ) : List (List β) → List (ℕ × List β)
  | [] => []
  | u :: us => (i, u) :: placed (i + u.length) us

variable {us us' : List (List β)}

/-- No blocks are placed nowhere, -/
@[simp] theorem placed_nil : placed i ([] : List (List β)) = [] := rfl

/-- and one more stands in front of the rest. -/
@[simp] theorem placed_cons (u : List β) :
    placed i (u :: us) = (i, u) :: placed (i + u.length) us := rfl

/-- Strings behind other strings. -/
theorem placed_append : placed i (us ++ us') = placed i us ++ placed (i + us.flatten.length) us' := by
  induction us generalizing i with
  | nil => rfl
  | cons u us ih =>
      rw [List.cons_append, placed_cons, placed_cons, ih, List.flatten_cons, List.length_append,
        List.cons_append, Nat.add_assoc]

/-- Rows of one width, one behind the other. -/
theorem placed_rows {n width : ℕ} {rows : Fin n → List (List β)}
    (h : ∀ k, (rows k).flatten.length = width) :
    placed i ((List.finRange n).flatMap rows) =
      (List.finRange n).flatMap fun k : Fin n => placed (i + k * width) (rows k) := by
  induction n generalizing i with
  | zero => rfl
  | succ n ih =>
      have hfirst : i + (0 : Fin (n + 1)) * width = i := by
        rw [Fin.val_zero, Nat.zero_mul, Nat.add_zero]
      have hrow (k : Fin n) : i + (k.succ : Fin (n + 1)) * width = i + width + k * width := by
        rw [Fin.val_succ, Nat.succ_mul]
        omega
      rw [List.finRange_succ, List.flatMap_cons, List.flatMap_cons, List.flatMap_map,
        List.flatMap_map, placed_append, h, ih fun k => h k.succ, hfirst]
      simp only [hrow]

/-- A column of strings of one width. -/
theorem placed_column {n width : ℕ} {row : Fin n → List β} (h : ∀ k, (row k).length = width) :
    placed i ((List.finRange n).map row) =
      (List.finRange n).map fun k : Fin n => (i + k * width, row k) := by
  have hwidth (k : Fin n) : [row k].flatten.length = width := by rw [List.flatten_singleton, h]
  rw [List.map_eq_flatMap, List.map_eq_flatMap, placed_rows hwidth]
  rfl

/-- A list of strings of one width, with their numbers. -/
theorem placed_zipIdx {α : Type} {width k : ℕ} {f : α → List β} (h : ∀ a, (f a).length = width)
    (as : List α) : placed (i + k * width) (as.map f) =
      (as.zipIdx k).map fun p => (i + p.2 * width, f p.1) := by
  induction as generalizing k with
  | nil => rfl
  | cons a as ih =>
      have hnext : i + k * width + width = i + (k + 1) * width := by
        rw [Nat.succ_mul, Nat.add_assoc]
      rw [List.map_cons, placed_cons, h, hnext, ih, List.zipIdx_cons, List.map_cons]

/-- The range of a string in place. -/
theorem range_of_mem_placed (h : w ∈ placed i us) :
    i ≤ w.1 ∧ w.1 + w.2.length ≤ i + us.flatten.length := by
  induction us generalizing i with
  | nil => cases h
  | cons u us ih =>
      rw [List.flatten_cons, List.length_append]
      rcases List.mem_cons.mp h with rfl | h
      · exact ⟨Nat.le_refl i, Nat.add_le_add_left (Nat.le_add_right _ _) i⟩
      · have hrest := ih h
        omega

/-- Strings in place do not meet. -/
theorem pairwise_placed : (placed i us).Pairwise Apart := by
  induction us generalizing i with
  | nil => exact List.Pairwise.nil
  | cons u us ih =>
      refine List.pairwise_cons.mpr ⟨fun v hv => ?_, ih⟩
      exact .inl (range_of_mem_placed hv).1

/-- A buffer in which each of the strings stands holds them one behind the other. -/
theorem standsAt_flatten (hi : i ≤ memory.length)
    (h : ∀ w ∈ placed i us, StandsAt memory w.1 w.2) : StandsAt memory i us.flatten := by
  induction us generalizing i with
  | nil =>
      refine ⟨hi, ?_⟩
      rw [List.flatten_nil, List.length_nil, Nat.add_zero, List.extract_eq_take_drop, Nat.sub_self,
        List.take_zero]
  | cons u us ih =>
      rw [placed_cons, List.forall_mem_cons] at h
      have hrest := ih h.1.1 h.2
      exact StandsAt.append h.1 hrest

/-- A string as long as the buffer that stands in it is the buffer. -/
theorem StandsAt.eq_self {u : List β} (h : StandsAt memory 0 u) (hlen : memory.length = u.length) :
    memory = u :=
  standsAt_self.eq_of_length h hlen

/-- **Filling a buffer of one value.** The writes, with some strings that the buffer holds already,
are strings one behind the other that fill the buffer. -/
theorem fill_blank {x : β} {blanks : List (ℕ × List β)}
    (hperm : (ws ++ blanks).Perm (placed 0 us))
    (hblanks : ∀ w ∈ blanks, w.2 = List.replicate w.2.length x) {n : ℕ}
    (hn : n = us.flatten.length) : fill (List.replicate n x) ws = some us.flatten := by
  have hsize : (List.replicate n x).length = us.flatten.length := by rw [List.length_replicate, hn]
  have hpairs : (ws ++ blanks).Pairwise Apart := hperm.symm.pairwise pairwise_placed Apart.symm
  rw [List.pairwise_append] at hpairs
  have hrange (w : ℕ × List β) (hw : w ∈ ws ++ blanks) :
      w.1 + w.2.length ≤ us.flatten.length := by
    have h := (range_of_mem_placed (hperm.mem_iff.mp hw)).2
    omega
  have hfits (w : ℕ × List β) (hw : w ∈ ws) : w.1 + w.2.length ≤ (List.replicate n x).length :=
    hsize ▸ hrange w (List.mem_append_left _ hw)
  obtain ⟨m, hm, hwritten⟩ := fill_spec hfits hpairs.1
  have hlen : m.length = us.flatten.length := hwritten.length_eq.trans hsize
  -- What was not written is blank, and no write meets it.
  have hstands (w : ℕ × List β) (hw : w ∈ placed 0 us) : StandsAt m w.1 w.2 := by
    rcases List.mem_append.mp (hperm.mem_iff.mpr hw) with hw | hw
    · exact hwritten.stands w hw
    · have hfits := hrange w (List.mem_append_right _ hw)
      apply hwritten.kept
      · rw [hblanks w hw]
        apply standsAt_replicate
        omega
      · intro v hv
        exact (hpairs.2.2 v hv w hw).symm
  have hall : StandsAt m 0 us.flatten := standsAt_flatten (Nat.zero_le _) hstands
  rw [hm, hall.eq_self hlen]

/-- The strings of a table of rows, row by row. -/
theorem flatten_flatMap_finRange {n : ℕ} (rows : Fin n → List (List β)) :
    ((List.finRange n).flatMap rows).flatten = (List.ofFn fun k => (rows k).flatten).flatten := by
  rw [List.ofFn_eq_map, List.flatMap_def, List.flatten_flatten, List.map_map]
  rfl

/-- **Filling a buffer with a table.** The writes at the front make the front, and the writes of each
row make the row, each with the blanks in it. -/
theorem fill_table {x : β} {n k width : ℕ} {front blanks : List (ℕ × List β)}
    {row rowBlanks : Fin k → List (ℕ × List β)} {rowParts : Fin k → List (List β)}
    (hfront : (front ++ blanks).Perm (placed 0 us))
    (hrow : ∀ j : Fin k,
      (row j ++ rowBlanks j).Perm (placed (us.flatten.length + j * width) (rowParts j)))
    (hwidth : ∀ j, (rowParts j).flatten.length = width)
    (hblanks : ∀ w ∈ blanks, w.2 = List.replicate w.2.length x)
    (hrowBlanks : ∀ j, ∀ w ∈ rowBlanks j, w.2 = List.replicate w.2.length x)
    (hn : n = us.flatten.length + k * width) :
    fill (List.replicate n x) (front ++ (List.finRange k).flatMap row) =
      some (us.flatten ++ (List.ofFn fun j => (rowParts j).flatten).flatten) := by
  have hrows : ((List.finRange k).flatMap row ++ (List.finRange k).flatMap rowBlanks).Perm
      (placed (0 + us.flatten.length) ((List.finRange k).flatMap rowParts)) := by
    rw [Nat.zero_add, placed_rows hwidth]
    apply (List.flatMap_append_perm _ row rowBlanks).trans
    exact List.Perm.flatMap_left _ fun j _ => hrow j
  have hall : (front ++ (List.finRange k).flatMap row ++
      (blanks ++ (List.finRange k).flatMap rowBlanks)).Perm
        (placed 0 (us ++ (List.finRange k).flatMap rowParts)) := by
    rw [placed_append]
    refine List.Perm.trans ?_ (hfront.append hrows)
    rw [← Multiset.coe_eq_coe]
    simp only [← Multiset.coe_add]
    exact add_add_add_comm _ _ _ _
  have hlen : n = (us ++ (List.finRange k).flatMap rowParts).flatten.length := by
    rw [hn, List.flatten_append, List.length_append, flatten_flatMap_finRange,
      length_flatten_rows hwidth]
  rw [fill_blank hall ?_ hlen, List.flatten_append, flatten_flatMap_finRange]
  intro w hw
  rcases List.mem_append.mp hw with hw | hw
  · exact hblanks w hw
  · obtain ⟨j, -, hw⟩ := List.mem_flatMap.mp hw
    exact hrowBlanks j w hw

/-- A buffer that is grown to its size is a buffer of the size with a first write. -/
theorem fill_resized {x : β} {u : List β} {n : ℕ} (h : u.length ≤ n) :
    fill (u ++ List.replicate (n - u.length) x) ws = fill (List.replicate n x) ((0, u) :: ws) := by
  have hfits : 0 + u.length ≤ (List.replicate n x).length := by
    rw [List.length_replicate, Nat.zero_add]
    exact h
  rw [fill_cons hfits, patch, List.take_zero, List.nil_append, Nat.zero_add, List.drop_replicate]

end AvmSdk.Wire
