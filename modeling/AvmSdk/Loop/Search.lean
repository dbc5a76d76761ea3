import Mathlib.Data.Nat.Log
import Mathlib.Order.Bounds.Basic
import Mathlib.Order.Lattice
import Mathlib.Tactic.Ring

/-!
# Searching a grid

Searching for the least multiple of a grid width that satisfies a condition, where what satisfies
the condition is upward closed up to a bound.

* `Fitting g bound P`: the positive multiples of `g` up to the bound that satisfy `P`.
* `Brackets g bound P low high`: between two multiples the condition begins to hold. The multiple
  in their middle narrows the bracket (`Brackets.halve`), and a bracket of one grid width shows the
  least multiple that fits (`Brackets.isLeast`).
* `lastDouble b bound`: the last of `b`, `2 * b`, `4 * b`, … up to the bound.
-/

namespace AvmSdk.Loop

/-- What satisfies the condition is upward closed up to the bound. -/
def UpwardTo (bound : ℕ) (P : ℕ → Prop) : Prop := ∀ a b, a ≤ b → b ≤ bound → P a → P b

/-- The positive multiples of the grid width up to the bound that satisfy the condition. -/
def Fitting (g bound : ℕ) (P : ℕ → Prop) : Set ℕ := {s | 0 < s ∧ g ∣ s ∧ s ≤ bound ∧ P s}

/-- The lower multiple is 0 or fails, and the upper one satisfies the condition. -/
structure Brackets (g bound : ℕ) (P : ℕ → Prop) (low high : ℕ) : Prop where
  low_lt : low < high
  high_le : high ≤ bound
  dvd_low : g ∣ low
  dvd_high : g ∣ high
  fails : low = 0 ∨ ¬ P low
  holds : P high

variable {g bound low high : ℕ} {P : ℕ → Prop}

/-- The upper end of a bracket fits. -/
theorem Brackets.mem_fitting (h : Brackets g bound P low high) : high ∈ Fitting g bound P :=
  ⟨(Nat.zero_le low).trans_lt h.low_lt, h.dvd_high, h.high_le, h.holds⟩

/-- **A bracket of one grid width**: its upper end is the least multiple that fits. -/
theorem Brackets.isLeast (h : Brackets g bound P low high) (hup : UpwardTo bound P)
    (hwidth : high ≤ low + g) : IsLeast (Fitting g bound P) high := by
  refine ⟨h.mem_fitting, ?_⟩
  rintro s ⟨hpos, hdvd, hle, hs⟩
  by_contra hlt
  have hlow : s ≤ low := by
    obtain ⟨a, rfl⟩ := hdvd
    obtain ⟨b, rfl⟩ := h.dvd_low
    have hab : a < b + 1 := by
      apply Nat.lt_of_mul_lt_mul_left (a := g)
      rw [Nat.mul_succ]
      omega
    exact Nat.mul_le_mul_left g (Nat.le_of_lt_succ hab)
  rcases h.fails with rfl | hfails
  · omega
  · exact hfails (hup s low hlow (h.low_lt.le.trans h.high_le) hs)

/-- The multiple in the middle, rounded down. -/
def middle (g low high : ℕ) : ℕ := (high + low) / (2 * g) * g

/-- The middle lies on the grid. -/
theorem dvd_middle (g low high : ℕ) : g ∣ middle g low high := Nat.dvd_mul_left g _

/-- The middle of two multiples that are not neighbours is between them. -/
theorem middle_mem_Ioo (hlow : g ∣ low) (hhigh : g ∣ high) (hwidth : low + g < high) :
    low < middle g low high ∧ middle g low high < high := by
  obtain ⟨a, rfl⟩ := hlow
  obtain ⟨b, rfl⟩ := hhigh
  have hg : 0 < g := by
    rw [Nat.pos_iff_ne_zero]
    rintro rfl
    simp at hwidth
  have hab : a + 1 < b := by
    apply Nat.lt_of_mul_lt_mul_left (a := g)
    rw [Nat.mul_succ]
    exact hwidth
  have hmiddle : middle g (g * a) (g * b) = g * ((b + a) / 2) := by
    rw [middle, ← Nat.mul_add, Nat.mul_comm 2 g, Nat.mul_div_mul_left _ _ hg, Nat.mul_comm]
  rw [hmiddle]
  constructor
  · apply Nat.mul_lt_mul_of_pos_left _ hg
    omega
  · apply Nat.mul_lt_mul_of_pos_left _ hg
    omega

/-- **Halving**: a middle that satisfies the condition is the new upper end, another one the new
lower end. -/
theorem Brackets.halve (h : Brackets g bound P low high) (hwidth : low + g < high) :
    (P (middle g low high) → Brackets g bound P low (middle g low high)) ∧
      (¬ P (middle g low high) → Brackets g bound P (middle g low high) high) := by
  obtain ⟨hlow, hhigh⟩ := middle_mem_Ioo h.dvd_low h.dvd_high hwidth
  constructor
  · intro hholds
    exact ⟨hlow, hhigh.le.trans h.high_le, h.dvd_low, dvd_middle g low high, h.fails, hholds⟩
  · intro hfails
    exact ⟨hhigh, h.high_le, dvd_middle g low high, h.dvd_high, Or.inr hfails, h.holds⟩

/-! ## Doubling -/

/-- The last of `b`, `2 * b`, `4 * b`, … up to the bound. -/
def lastDouble (b bound : ℕ) : ℕ := b * 2 ^ Nat.log 2 (bound / b)

variable {b k : ℕ}

/-- The doubled sizes up to the bound. -/
theorem double_le_iff (hb : 0 < b) (hbound : b ≤ bound) :
    b * 2 ^ k ≤ bound ↔ k ≤ Nat.log 2 (bound / b) := by
  have hne : bound / b ≠ 0 := (Nat.div_pos hbound hb).ne'
  rw [Nat.le_log_iff_pow_le Nat.one_lt_two hne, Nat.le_div_iff_mul_le hb, Nat.mul_comm]

/-- The doubling stays within the bound. -/
theorem lastDouble_le (hb : 0 < b) (hbound : b ≤ bound) : lastDouble b bound ≤ bound :=
  (double_le_iff hb hbound).mpr le_rfl

/-- A doubled size up to the bound is not behind the last one. -/
theorem double_le_lastDouble (hb : 0 < b) (hbound : b ≤ bound) (h : b * 2 ^ k ≤ bound) :
    b * 2 ^ k ≤ lastDouble b bound := by
  apply Nat.mul_le_mul_left b
  exact Nat.pow_le_pow_right Nat.two_pos ((double_le_iff hb hbound).mp h)

/-- Where one more doubling passes the bound, the size is the last one. -/
theorem eq_lastDouble (hb : 0 < b) (hbound : b ≤ bound) (h : b * 2 ^ k ≤ bound)
    (hnext : bound < b * 2 ^ (k + 1)) : b * 2 ^ k = lastDouble b bound := by
  have hle := (double_le_iff hb hbound).mp h
  have hlt : ¬ k + 1 ≤ Nat.log 2 (bound / b) := by
    intro hk
    have := (double_le_iff hb hbound).mpr hk
    omega
  have hk : k = Nat.log 2 (bound / b) := by omega
  rw [lastDouble, ← hk]

end AvmSdk.Loop
