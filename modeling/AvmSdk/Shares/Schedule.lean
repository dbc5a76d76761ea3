import AvmSdk.Shares.Proportion

/-!
# Release schedules

An amount that is released over time: nothing before a cliff, all of it at the end, and in between
the part of the time that has passed, in whole steps.

* `wholeSteps`: a duration, rounded down to whole steps.
* `Schedule.released`: what is released at a time. `Schedule.released_le`, `Schedule.released_mono`:
  it is a part of the amount, and never shrinks, although it is rounded down twice.
-/

namespace AvmSdk.Shares

/-- A duration rounded down to whole steps; steps of length zero do not round. -/
def wholeSteps (step elapsed : ℕ) : ℕ := if step = 0 then elapsed else elapsed / step * step

/-- Only time that has passed counts. -/
theorem wholeSteps_le (step elapsed : ℕ) : wholeSteps step elapsed ≤ elapsed := by
  unfold wholeSteps
  by_cases h : step = 0
  · rw [if_pos h]
  · rw [if_neg h]
    exact Nat.div_mul_le_self elapsed step

/-- More time makes no fewer steps. -/
theorem wholeSteps_mono (step : ℕ) {elapsed elapsed' : ℕ} (h : elapsed ≤ elapsed') :
    wholeSteps step elapsed ≤ wholeSteps step elapsed' := by
  unfold wholeSteps
  by_cases hstep : step = 0
  · rw [if_pos hstep, if_pos hstep]
    exact h
  · rw [if_neg hstep, if_neg hstep]
    exact Nat.mul_le_mul_right step (Nat.div_le_div_right h)

/-- The times of a schedule. -/
structure Schedule where
  start : ℕ
  /-- Nothing is released before. -/
  cliff : ℕ
  /-- All is released from here on. -/
  stop : ℕ
  /-- The length of a step, zero for none. -/
  step : ℕ

namespace Schedule

/-- What is released of an amount at a time. -/
def released (s : Schedule) (total now : ℕ) : ℕ :=
  if now < s.cliff ∨ now ≤ s.start then 0
  else if s.stop ≤ now then total
  else share (s.stop - s.start) total (wholeSteps s.step (now - s.start))

variable {s : Schedule} {total now later : ℕ}

/-- What is released is a part of the amount. -/
theorem released_le (s : Schedule) (total now : ℕ) : s.released total now ≤ total := by
  unfold released
  by_cases hearly : now < s.cliff ∨ now ≤ s.start
  · rw [if_pos hearly]
    exact Nat.zero_le total
  · by_cases hlate : s.stop ≤ now
    · rw [if_neg hearly, if_pos hlate]
    · rw [if_neg hearly, if_neg hlate]
      apply share_le
      have hsteps := wholeSteps_le s.step (now - s.start)
      omega

/-- **What is released never shrinks.** -/
theorem released_mono (s : Schedule) (total : ℕ) (h : now ≤ later) :
    s.released total now ≤ s.released total later := by
  by_cases hearly : now < s.cliff ∨ now ≤ s.start
  · -- nothing yet
    have hzero : s.released total now = 0 := if_pos hearly
    rw [hzero]
    exact Nat.zero_le _
  · have hearly' : ¬ (later < s.cliff ∨ later ≤ s.start) := by omega
    by_cases hlate' : s.stop ≤ later
    · -- everything
      have htotal : s.released total later = total := by
        unfold released
        rw [if_neg hearly', if_pos hlate']
      rw [htotal]
      exact released_le s total now
    · -- the same formula at both times
      have hlate : ¬ s.stop ≤ now := by omega
      unfold released
      rw [if_neg hearly, if_neg hlate, if_neg hearly', if_neg hlate']
      apply share_mono_weight
      exact wholeSteps_mono s.step (by omega)

end Schedule

end AvmSdk.Shares
