import AvmSdk.Wire.Checked
import Mathlib.Algebra.BigOperators.Group.List.Basic
import Mathlib.Algebra.GroupWithZero.Nat

/-!
# Checked sizes

A size is computed with additions and multiplications that fail above a bound. The order in which
the parts are added does not matter: the computation succeeds exactly when the whole size is within
the bound, and then with the exact size.

* `Measures cap x m`: `x` computes `m` if `m` is at most `cap`, and fails otherwise.
* `Measures.bind`, `Measures.foldlM`, `Measures.optional`: one rule for each way of adding parts.
-/

namespace AvmSdk.Wire

variable {ε α : Type} {cap m k : ℕ}

/-- `x` computes the size `m`, and fails exactly when `m` is above the bound. -/
def Measures (cap : ℕ) (x : Except ε ℕ) (m : ℕ) : Prop := ∀ n, x = .ok n ↔ n = m ∧ m ≤ cap

/-- A size that is within the bound. -/
theorem measures_ok (h : m ≤ cap) : Measures cap (.ok m : Except ε ℕ) m := by
  intro n
  rw [Except.ok.injEq, eq_comm]
  exact ⟨fun hn => ⟨hn, h⟩, fun hn => hn.1⟩

/-- A size may be given in any equal way. -/
theorem Measures.congr {x : Except ε ℕ} (h : Measures cap x m) (hm : k = m) :
    Measures cap x k := hm ▸ h

/-- A part that is computed before the whole, and is not larger than it. -/
theorem Measures.bind {x : Except ε ℕ} {f : ℕ → Except ε ℕ} (hx : Measures cap x m)
    (hf : Measures cap (f m) k) (hle : m ≤ k) : Measures cap (x >>= f) k := by
  intro n
  rw [bind_ok_iff]
  constructor
  · rintro ⟨a, ha, hfa⟩
    obtain ⟨rfl, -⟩ := (hx a).mp ha
    exact (hf n).mp hfa
  · rintro ⟨rfl, hk⟩
    exact ⟨m, (hx m).mpr ⟨rfl, hle.trans hk⟩, (hf n).mpr ⟨rfl, hk⟩⟩

/-- **A running total** ends with the start and the sizes of all parts. -/
theorem Measures.foldlM {step : ℕ → α → Except ε ℕ} {size : α → ℕ}
    (hstep : ∀ total a, Measures cap (step total a) (total + size a)) (as : List α) {init : ℕ}
    (h : init ≤ cap) : Measures cap (as.foldlM step init) (init + (as.map size).sum) := by
  induction as generalizing init with
  | nil => exact measures_ok h
  | cons a as ih =>
      rw [List.foldlM_cons, List.map_cons, List.sum_cons, ← Nat.add_assoc]
      intro n
      by_cases hfirst : init + size a ≤ cap
      · exact (hstep init a).bind (ih hfirst) (Nat.le_add_right _ _) n
      · rw [bind_ok_iff]
        constructor
        · rintro ⟨b, hb, -⟩
          exact absurd ((hstep init a b).mp hb).2 hfirst
        · rintro ⟨-, hle⟩
          exact absurd ((Nat.le_add_right _ _).trans hle) hfirst

/-- A part that may be absent. -/
theorem Measures.optional {f : α → Except ε ℕ} {size : α → ℕ}
    (hf : ∀ a, Measures cap (f a) (size a)) (o : Option α) :
    Measures cap (match o with | some a => f a | none => .ok 0) (o.elim 0 size) := by
  cases o with
  | none => exact measures_ok (Nat.zero_le _)
  | some a => exact hf a

end AvmSdk.Wire
