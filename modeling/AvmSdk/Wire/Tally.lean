import AvmSdk.Wire.Checked
import Mathlib.Algebra.BigOperators.Fin
import Mathlib.Algebra.BigOperators.Group.Finset.Piecewise
import Mathlib.Tactic.Abel

/-!
# Running totals

A loop that checks each item and adds to a running total, where the total has a bounded type and
the addition may fail.

* `Tallies value`: types of totals, where every part of a total is a total. Words tally
  (`tallies_toNat`), and so do totals side by side (`Tallies.prod`).
* `foldlM_total_iff`: the loop succeeds exactly when every item passes its check and the exact
  total can be represented; that it can be represented on the way then follows.
* `firstIndices n k`: the indices of the first `k` entries of an array of `n`, with their sum
  (`sum_firstIndices`).
* `sum_update_add`: what changing one entry does to the sum over an array.
-/

namespace AvmSdk.Wire

variable {ε α τ τ' M M' : Type} [AddCommMonoid M] [AddCommMonoid M']

/-- **A type of totals**: `value t` is the exact total that `t` stands for, and every part of a total
that can be represented can be represented. -/
structure Tallies (value : τ → M) : Prop where
  injective : Function.Injective value
  exists_part : ∀ t m n, value t = m + n → ∃ u, value u = m

/-- Every number below a word is a word. -/
theorem tallies_toNat (w : ℕ) : Tallies (BitVec.toNat : BitVec w → ℕ) where
  injective _ _ := BitVec.eq_of_toNat_eq
  exists_part t m n h := by
    have hlt := t.isLt
    refine ⟨BitVec.ofNat w m, ?_⟩
    rw [BitVec.toNat_ofNat, Nat.mod_eq_of_lt]
    omega

/-- Two totals side by side. -/
theorem Tallies.prod {value : τ → M} {value' : τ' → M'} (h : Tallies value) (h' : Tallies value') :
    Tallies fun t : τ × τ' => (value t.1, value' t.2) where
  injective := by
    rintro ⟨a, a'⟩ ⟨b, b'⟩ heq
    obtain ⟨hfirst, hsecond⟩ := Prod.mk.inj heq
    exact Prod.ext (h.injective hfirst) (h'.injective hsecond)
  exists_part := by
    rintro ⟨t, t'⟩ ⟨m, m'⟩ ⟨n, n'⟩ heq
    obtain ⟨hfirst, hsecond⟩ := Prod.mk.inj heq
    obtain ⟨u, hu⟩ := h.exists_part t m n hfirst
    obtain ⟨u', hu'⟩ := h'.exists_part t' m' n' hsecond
    exact ⟨(u, u'), Prod.ext hu hu'⟩

section

variable {value : τ → M} {step : τ → α → Except ε τ} {P : α → Prop} {f : α → M} {t u : τ}

/-- **A running total** over a list. -/
theorem foldlM_total_iff (h : Tallies value)
    (hstep : ∀ t a u, step t a = .ok u ↔ P a ∧ value u = value t + f a) (as : List α) :
    as.foldlM step t = .ok u ↔ (∀ a ∈ as, P a) ∧ value u = value t + (as.map f).sum := by
  induction as generalizing t with
  | nil =>
      rw [List.foldlM_nil, pure_ok_iff, List.map_nil, List.sum_nil, add_zero]
      constructor
      · rintro rfl
        exact ⟨fun _ hmem => absurd hmem List.not_mem_nil, rfl⟩
      · rintro ⟨-, hvalue⟩
        exact (h.injective hvalue).symm
  | cons a as ih =>
      rw [List.foldlM_cons, bind_ok_iff, List.forall_mem_cons, List.map_cons, List.sum_cons,
        ← add_assoc]
      constructor
      · rintro ⟨v, hv, hu⟩
        obtain ⟨ha, hval⟩ := (hstep t a v).mp hv
        obtain ⟨has, hu⟩ := ih.mp hu
        exact ⟨⟨ha, has⟩, hval ▸ hu⟩
      · rintro ⟨⟨ha, has⟩, hu⟩
        obtain ⟨v, hv⟩ := h.exists_part u _ _ hu
        exact ⟨v, (hstep t a v).mpr ⟨ha, hv⟩, ih.mpr ⟨has, hv ▸ hu⟩⟩

/-- A running total from nothing on. -/
theorem foldlM_total_zero_iff (h : Tallies value)
    (hstep : ∀ t a u, step t a = .ok u ↔ P a ∧ value u = value t + f a) (hzero : value t = 0)
    (as : List α) :
    as.foldlM step t = .ok u ↔ (∀ a ∈ as, P a) ∧ value u = (as.map f).sum := by
  rw [foldlM_total_iff h hstep, hzero, zero_add]

end

/-! ## The front of an array -/

/-- The indices of the entries `a[..k]` of an array of `n`, in order. -/
def firstIndices (n k : ℕ) : List (Fin n) := (List.finRange n).filter fun i => i.val < k

/-- The first indices are those below the number. -/
@[simp] theorem mem_firstIndices {n k : ℕ} {i : Fin n} : i ∈ firstIndices n k ↔ i.val < k := by
  simp [firstIndices]

/-- They are the first ones of all. -/
theorem firstIndices_eq_take (n k : ℕ) : firstIndices n k = (List.finRange n).take k := by
  unfold firstIndices
  induction n generalizing k with
  | zero => simp
  | succ n ih =>
      rw [List.finRange_succ]
      cases k with
      | zero => simp
      | succ k =>
          rw [List.filter_cons_of_pos (by simp), List.take_succ_cons, ← List.map_take, ← ih k,
            List.filter_map]
          congr 3
          funext i
          simp

/-- **Searching** for what only one entry satisfies finds that entry. -/
theorem find?_eq_some_iff_of_unique {as : List α} {p : α → Prop} [DecidablePred p]
    (hunique : ∀ a ∈ as, ∀ b ∈ as, p a → p b → a = b) {a : α} :
    as.find? (fun a => decide (p a)) = some a ↔ a ∈ as ∧ p a := by
  constructor
  · intro h
    have hp := List.find?_some h
    exact ⟨List.mem_of_find?_eq_some h, of_decide_eq_true hp⟩
  · rintro ⟨hmem, hp⟩
    have hsome : (as.find? fun a => decide (p a)).isSome :=
      List.find?_isSome.mpr ⟨a, hmem, decide_eq_true hp⟩
    obtain ⟨b, hb⟩ := Option.isSome_iff_exists.mp hsome
    have hpb := List.find?_some hb
    rw [hb, hunique b (List.mem_of_find?_eq_some hb) a hmem (of_decide_eq_true hpb) hp]

/-- The sum over all entries of an array. -/
theorem sum_finRange {n : ℕ} (f : Fin n → M) : ((List.finRange n).map f).sum = ∑ i, f i := by
  rw [Fin.sum_univ_def]

/-- The sum over the front of an array, where the entries behind it count nothing. -/
theorem sum_firstIndices {n k : ℕ} (f : Fin n → M) :
    ((firstIndices n k).map f).sum = ∑ i, if i.val < k then f i else 0 := by
  rw [← sum_finRange, firstIndices]
  induction List.finRange n with
  | nil => rfl
  | cons i is ih =>
      rw [List.filter_cons, List.map_cons, List.sum_cons, ← ih]
      by_cases h : i.val < k
      · rw [if_pos (decide_eq_true h), if_pos h, List.map_cons, List.sum_cons]
      · rw [if_neg (by simpa using h), if_neg h, zero_add]

/-- A sum over the front is a sum over all entries if the entries behind count nothing anyway. -/
theorem sum_ite_of_zero {n k : ℕ} {f : Fin n → M} (h : ∀ i : Fin n, k ≤ i.val → f i = 0) :
    (∑ i, if i.val < k then f i else 0) = ∑ i, f i := by
  refine Finset.sum_congr rfl fun i _ => ?_
  by_cases hi : i.val < k
  · rw [if_pos hi]
  · rw [if_neg hi, h i (by omega)]

/-- Changing one entry exchanges its part of the sum. -/
theorem sum_update_add {n : ℕ} (f : α → M) (g : Fin n → α) (i : Fin n) (a : α) :
    ∑ j, f (Function.update g i a j) + f (g i) = ∑ j, f (g j) + f a := by
  have hrest : ∑ j ∈ Finset.univ.erase i, f (Function.update g i a j) =
      ∑ j ∈ Finset.univ.erase i, f (g j) :=
    Finset.sum_congr rfl fun j hj => by rw [Function.update_of_ne (Finset.ne_of_mem_erase hj)]
  rw [← Finset.add_sum_erase _ _ (Finset.mem_univ i), ← Finset.add_sum_erase _ _ (Finset.mem_univ i),
    Function.update_self, hrest]
  abel

end AvmSdk.Wire
