import Mathlib.Algebra.Order.BigOperators.Group.Finset
import Mathlib.Algebra.BigOperators.Fin
import Mathlib.Algebra.BigOperators.Ring.Finset
import Mathlib.Tactic.Ring

/-!
# Shares of an amount

The part `w / d` of an amount, rounded down.

* `share_le`, `share_mono`: a share is a part, and grows with the amount and with the weight.
* `share_eq_quotient_remainder`: the computation by quotient and remainder, which never forms the
  product of the amount and the weight.
* `below_of_lt`: no number on the way of this computation is large.
* `sum_share_le`, `lt_sum_share_add_card`: shares whose weights sum up to the whole leave less than
  one unit a share undistributed.
-/

namespace AvmSdk.Shares

/-- The part `w / d` of an amount, rounded down. -/
def share (d total w : ℕ) : ℕ := total * w / d

variable {d total w : ℕ}

/-- Nothing is shared out of nothing, -/
@[simp] theorem share_zero_total : share d 0 w = 0 := by simp [share]

/-- and nothing goes to no weight. -/
@[simp] theorem share_zero_weight : share d total 0 = 0 := by simp [share]

/-- A whole share is the amount. -/
theorem share_self (hd : 0 < d) : share d total d = total := Nat.mul_div_cancel total hd

/-- A share grows with the amount. -/
theorem share_mono {total' : ℕ} (h : total ≤ total') : share d total w ≤ share d total' w :=
  Nat.div_le_div_right (Nat.mul_le_mul_right w h)

/-- A share grows with the weight. -/
theorem share_mono_weight {w' : ℕ} (h : w ≤ w') : share d total w ≤ share d total w' :=
  Nat.div_le_div_right (Nat.mul_le_mul_left total h)

/-- A share is not more than the amount. -/
theorem share_le (hw : w ≤ d) : share d total w ≤ total := by
  rcases Nat.eq_zero_or_pos d with rfl | hd
  · rw [share, Nat.div_zero]
    exact Nat.zero_le total
  · calc share d total w ≤ share d total d := share_mono_weight hw
      _ = total := share_self hd

/-- **Quotient and remainder.** A share can be computed without the product of amount and weight. -/
theorem share_eq_quotient_remainder (hd : 0 < d) :
    share d total w = total / d * w + total % d * w / d := by
  have hsplit : total * w = total % d * w + d * (total / d * w) := by
    conv_lhs => rw [← Nat.mod_add_div total d]
    ring
  rw [share, hsplit, Nat.add_mul_div_left _ _ hd, Nat.add_comm]

/-- The numbers on the way of the computation by quotient and remainder stay below a bound. -/
structure Below (bound d total w : ℕ) : Prop where
  whole : total / d * w < bound
  product : total % d * w < bound
  sum : total / d * w + total % d * w / d < bound

/-- **No overflow.** A bound of the amount and of the square of the whole bounds the numbers on the
way. -/
theorem below_of_lt {bound : ℕ} (hd : 0 < d) (hw : w ≤ d) (htotal : total < bound)
    (hsquare : d * d ≤ bound) : Below bound d total w := by
  have hshare : total / d * w + total % d * w / d < bound := by
    rw [← share_eq_quotient_remainder hd]
    exact (share_le hw).trans_lt htotal
  have hproduct : total % d * w < d * d :=
    calc total % d * w ≤ total % d * d := Nat.mul_le_mul_left _ hw
      _ < d * d := Nat.mul_lt_mul_of_pos_right (Nat.mod_lt total hd) hd
  exact ⟨(Nat.le_add_right _ _).trans_lt hshare, hproduct.trans_le hsquare, hshare⟩

section

variable {ι : Type} (s : Finset ι) {weight : ι → ℕ}

/-- Shares whose weights sum up to the whole are not more than the amount. -/
theorem sum_share_le (hsum : ∑ i ∈ s, weight i = d) : ∑ i ∈ s, share d total (weight i) ≤ total := by
  rcases Nat.eq_zero_or_pos d with rfl | hd
  · simp [share]
  · refine Nat.le_of_mul_le_mul_right ?_ hd
    calc (∑ i ∈ s, share d total (weight i)) * d
        = ∑ i ∈ s, share d total (weight i) * d := Finset.sum_mul ..
      _ ≤ ∑ i ∈ s, total * weight i := Finset.sum_le_sum fun i _ => Nat.div_mul_le_self _ _
      _ = total * d := by rw [← Finset.mul_sum, hsum]

/-- They fall short of it by less than one unit a share. -/
theorem lt_sum_share_add_card (hd : 0 < d) (hs : s.Nonempty) (hsum : ∑ i ∈ s, weight i = d) :
    total < (∑ i ∈ s, share d total (weight i)) + s.card := by
  have hlt : ∀ i ∈ s, total * weight i < (share d total (weight i) + 1) * d := by
    intro i _
    rw [share, Nat.mul_comm _ d]
    exact Nat.lt_mul_div_succ _ hd
  refine Nat.lt_of_mul_lt_mul_right (a := d) ?_
  calc total * d = ∑ i ∈ s, total * weight i := by rw [← Finset.mul_sum, hsum]
    _ < ∑ i ∈ s, (share d total (weight i) + 1) * d := Finset.sum_lt_sum_of_nonempty hs hlt
    _ = ((∑ i ∈ s, share d total (weight i)) + s.card) * d := by
        rw [← Finset.sum_mul, Finset.sum_add_distrib, Finset.card_eq_sum_ones]

end

/-- The shares of a list of weights that sum up to the whole are not more than the amount. -/
theorem sum_map_share_le {ws : List ℕ} (hsum : ws.sum = d) :
    (ws.map (share d total)).sum ≤ total := by
  have hweights : ∑ i : Fin ws.length, ws[i.val] = d := (Fin.sum_univ_getElem ws).trans hsum
  rw [← Fin.sum_univ_fun_getElem]
  exact sum_share_le Finset.univ hweights

/-- They fall short of it by less than one unit a weight. -/
theorem lt_sum_map_share_add_length {ws : List ℕ} (hd : 0 < d) (hsum : ws.sum = d) :
    total < (ws.map (share d total)).sum + ws.length := by
  have hweights : ∑ i : Fin ws.length, ws[i.val] = d := (Fin.sum_univ_getElem ws).trans hsum
  have hpos : 0 < ws.length := by
    apply Nat.pos_of_ne_zero
    intro hlen
    rw [List.length_eq_zero_iff] at hlen
    rw [hlen, List.sum_nil] at hsum
    omega
  have hnonempty : (Finset.univ : Finset (Fin ws.length)).Nonempty := ⟨⟨0, hpos⟩, Finset.mem_univ _⟩
  have hlt : total < _ := lt_sum_share_add_card Finset.univ hd hnonempty hweights
  rwa [Finset.card_univ, Fintype.card_fin, Fin.sum_univ_fun_getElem] at hlt

end AvmSdk.Shares
