import AvmSdk.Loop.Search
import AvmSdk.Tools.ContractMemory

/-!
# The search for a stack size

The script that measures a project's resources doubles a stack size until the tests pass with it,
and then halves the range in which they begin to pass.

* `selectStack`: the search and the two probes that confirm its result, as the script makes them.
  A probe is a function of the stack size, true if all tests pass.
* `SelectsSmallest`: the result is the least size on the grid that passes, or an error if none does.
* `doubling_spec`, `halving_spec`: what the two loops end with.
* `selectStack_iff`: for which outcomes of the probes the search finds the least size. It misses it
  when the sizes that pass are all behind the last doubled size.
-/

namespace AvmSdk.Tools

open Loop

/-- A round of the first loop.
Source: `measure_contract_resources.py` `main`, `while not probe(high)['passed']` -/
def doublingRound (maximum : ℕ) (passed : ℕ → Bool) (high : ℕ) : Except Raised (Round ℕ ℕ) :=
  if passed high then .ok (.done high)
  else
    let high := high * 2
    if high > maximum then
      .error (.valueError "the full corpus does not fit the declared memory limit")
    else .ok (.again high)

/-- A round of the second loop.
Source: `measure_contract_resources.py` `main`, `while high - low > 16` -/
def halvingRound (passed : ℕ → Bool) : ℕ × ℕ → Except Raised (Round (ℕ × ℕ) ℕ)
  | (low, high) =>
      if high - low > 16 then
        let middle := (high + low) / 32 * 16
        if passed middle then .ok (.again (low, middle)) else .ok (.again (middle, high))
      else .ok (.done high)

/-- The size that is searched.
Source: `measure_contract_resources.py` `main`, `high = 16384` to `stack = high` -/
def searchStack (maximum : ℕ) (passed : ℕ → Bool) (bound : ℕ) : ExceptT Raised Option ℕ := do
  let high ← loop (doublingRound maximum passed) bound 16384
  loop (halvingRound passed) bound (0, high)

/-- The size that is given or searched.
Source: `measure_contract_resources.py` `main`, `if 'stack_bytes' in explicit` -/
def stackSize (explicit : Option ℕ) (maximum : ℕ) (passed : ℕ → Bool) (bound : ℕ) :
    ExceptT Raised Option ℕ :=
  match explicit with
  | some stack => result (.ok stack)
  | none => searchStack maximum passed bound

/-- The probes that confirm a size.
Source: `measure_contract_resources.py` `main`, `qualified = probe(stack)` to `lower_stack_failed` -/
def confirmStack (explicit : Option ℕ) (passed : ℕ → Bool) (stack : ℕ) : Except Raised ℕ :=
  if passed stack = false then
    .error (.valueError "explicit or selected resources fail contract tests")
  else if explicit = none ∧ stack > 16 ∧ passed (stack - 16) = true then
    .error (.valueError "the selected stack lacks a failing lower-size witness")
  else .ok stack

/-- The stack size of a project.
Source: `measure_contract_resources.py` `main`, the selection of `stack` -/
def selectStack (explicit : Option ℕ) (maximum : ℕ) (passed : ℕ → Bool) (bound : ℕ) :
    ExceptT Raised Option ℕ := do
  let stack ← stackSize explicit maximum passed bound
  result (confirmStack explicit passed stack)

/-- The sizes on the grid up to the maximum with which the tests pass. -/
def PassingSizes (maximum : ℕ) (passed : ℕ → Bool) : Set ℕ :=
  Fitting 16 maximum (fun size => passed size = true)

/-- A size that passes implies every larger one up to the maximum. -/
def MonotoneProbe (maximum : ℕ) (passed : ℕ → Bool) : Prop :=
  UpwardTo maximum (fun size => passed size = true)

/-- **What a search should return**: the least size that passes, next to a size that fails, or an
error if no size passes. -/
structure SelectsSmallest (maximum : ℕ) (passed : ℕ → Bool) (r : Except Raised ℕ) : Prop where
  selects : (PassingSizes maximum passed).Nonempty → ∃ stack, r = .ok stack ∧
    IsLeast (PassingSizes maximum passed) stack ∧ (16 ≤ stack - 16 → passed (stack - 16) = false)
  raises : ¬ (PassingSizes maximum passed).Nonempty → ∃ e, r = .error e
  le_maximum : ∀ stack, r = .ok stack → stack ≤ maximum

variable {maximum : ℕ} {passed : ℕ → Bool}

/-! ## The two loops -/

/-- What a round of the first loop does. -/
theorem doublingRound_eq (maximum : ℕ) (passed : ℕ → Bool) (high : ℕ) :
    doublingRound maximum passed high =
      if passed high = true then .ok (.done high)
      else if maximum < high * 2 then
        .error (.valueError "the full corpus does not fit the declared memory limit")
      else .ok (.again (high * 2)) := rfl

/-- What a round of the second loop does. -/
theorem halvingRound_eq (passed : ℕ → Bool) (low high : ℕ) : halvingRound passed (low, high) =
    if 16 < high - low then
      if passed (middle 16 low high) = true then .ok (.again (low, middle 16 low high))
      else .ok (.again (middle 16 low high, high))
    else .ok (.done high) := rfl

/-- The first loop ends: the sizes grow, up to the maximum. -/
theorem exists_doubling_ends (maximum : ℕ) (passed : ℕ → Bool) :
    ∃ r, Ends (doublingRound maximum passed) 16384 r := by
  apply exists_ends (fun high => 0 < high) (fun high => maximum - high)
  case hs => exact Nat.succ_pos _
  case hagain =>
    intro high high' hpos h
    rw [doublingRound_eq] at h
    split_ifs at h with hpass hle
    · cases h
    · cases h
      omega

/-- **The first loop** ends with a size that passes, if the last doubled size does, and otherwise
with an error. -/
theorem doubling_spec (hmax : 16384 ≤ maximum) (hup : MonotoneProbe maximum passed)
    {r : Except Raised ℕ} (h : Ends (doublingRound maximum passed) 16384 r) :
    (passed (lastDouble 16384 maximum) = true ∧ ∃ high, r = .ok high ∧
        Brackets 16 maximum (fun size => passed size = true) 0 high) ∨
      (¬ passed (lastDouble 16384 maximum) = true ∧ ∃ e, r = .error e) := by
  have hb : 0 < 16384 := Nat.succ_pos _
  apply h.invariant (fun high => high ≤ maximum ∧ ∃ k, high = 16384 * 2 ^ k)
  case hs => exact ⟨hmax, 0, rfl⟩
  case hagain =>
    rintro high high' ⟨-, k, rfl⟩ hround
    rw [doublingRound_eq] at hround
    split_ifs at hround with hpass hle
    · cases hround
    · cases hround
      exact ⟨Nat.le_of_not_lt hle, k + 1, by rw [Nat.pow_succ, ← Nat.mul_assoc]⟩
  case hdone =>
    rintro high a ⟨hle, k, rfl⟩ hround
    rw [doublingRound_eq] at hround
    split_ifs at hround with hpass hnext
    · cases hround
      refine Or.inl ⟨?_, _, rfl, ?_⟩
      · exact hup _ _ (double_le_lastDouble hb hmax hle) (lastDouble_le hb hmax) hpass
      · have hdvd : 16 ∣ 16384 * 2 ^ k := Dvd.dvd.mul_right (by decide) _
        exact ⟨Nat.mul_pos hb (Nat.two_pow_pos k), hle, Nat.dvd_zero 16, hdvd, Or.inl rfl, hpass⟩
    · cases hround
  case herror =>
    rintro high e ⟨hle, k, rfl⟩ hround
    rw [doublingRound_eq] at hround
    split_ifs at hround with hpass hnext
    have hlast := eq_lastDouble hb hmax hle (by rwa [Nat.pow_succ, ← Nat.mul_assoc])
    rw [← hlast]
    exact Or.inr ⟨hpass, e, rfl⟩

/-- A further round of the second loop narrows the bracket. -/
theorem halving_again {low high : ℕ} {state : ℕ × ℕ}
    (hbrackets : Brackets 16 maximum (fun size => passed size = true) low high)
    (h : halvingRound passed (low, high) = .ok (.again state)) :
    Brackets 16 maximum (fun size => passed size = true) state.1 state.2 ∧
      state.2 - state.1 < high - low := by
  rw [halvingRound_eq] at h
  by_cases hwidth : 16 < high - low
  · have hgap : low + 16 < high := by omega
    obtain ⟨hlow, hhigh⟩ := middle_mem_Ioo hbrackets.dvd_low hbrackets.dvd_high hgap
    obtain ⟨hpass, hfail⟩ := hbrackets.halve hgap
    rw [if_pos hwidth] at h
    split_ifs at h with hmiddle
    · cases h
      refine ⟨hpass hmiddle, ?_⟩
      show middle 16 low high - low < high - low
      omega
    · cases h
      refine ⟨hfail hmiddle, ?_⟩
      show high - middle 16 low high < high - low
      omega
  · rw [if_neg hwidth] at h
    cases h

/-- **The second loop** ends with the least size that passes. -/
theorem halving_spec (hup : MonotoneProbe maximum passed) {low high : ℕ}
    (hbrackets : Brackets 16 maximum (fun size => passed size = true) low high) :
    ∃ stack, Ends (halvingRound passed) (low, high) (.ok stack) ∧
      IsLeast (PassingSizes maximum passed) stack := by
  obtain ⟨r, hends⟩ : ∃ r, Ends (halvingRound passed) (low, high) r :=
    exists_ends
      (fun state => Brackets 16 maximum (fun size => passed size = true) state.1 state.2)
      (fun state => state.2 - state.1) (fun _ _ => halving_again) hbrackets
  suffices hleast : ∃ stack, r = .ok stack ∧ IsLeast (PassingSizes maximum passed) stack by
    obtain ⟨stack, rfl, hstack⟩ := hleast
    exact ⟨stack, hends, hstack⟩
  apply hends.invariant
    (fun state => Brackets 16 maximum (fun size => passed size = true) state.1 state.2)
  case hs => exact hbrackets
  case hagain => exact fun _ _ hstate h => (halving_again hstate h).1
  case hdone =>
    rintro ⟨low, high⟩ stack hstate h
    rw [halvingRound_eq] at h
    split_ifs at h with hwidth
    · cases h
    · cases h
    · cases h
      exact ⟨high, rfl, hstate.isLeast hup (by omega)⟩
  case herror =>
    rintro ⟨low, high⟩ e - h
    rw [halvingRound_eq] at h
    split_ifs at h

/-! ## The search -/

/-- The size below the least one that passes fails. -/
theorem pred_fails {stack : ℕ} (h : IsLeast (PassingSizes maximum passed) stack)
    (hlt : 16 < stack) : passed (stack - 16) = false := by
  obtain ⟨⟨-, hdvd, hle, -⟩, hleast⟩ := h
  rw [← Bool.not_eq_true]
  intro hpass
  have hmem : stack - 16 ∈ PassingSizes maximum passed :=
    ⟨by omega, Nat.dvd_sub hdvd (Nat.dvd_refl 16), by omega, hpass⟩
  have := hleast hmem
  omega

/-- The probes confirm the least size that passes. -/
theorem confirmStack_of_isLeast {stack : ℕ} (h : IsLeast (PassingSizes maximum passed) stack) :
    confirmStack none passed stack = .ok stack := by
  have hpass : passed stack = true := h.1.2.2.2
  have hfails : ¬ ((none : Option ℕ) = none ∧ stack > 16 ∧ passed (stack - 16) = true) := by
    rintro ⟨-, hlt, hpred⟩
    rw [pred_fails h hlt] at hpred
    cases hpred
  rw [confirmStack, hpass, if_neg Bool.noConfusion, if_neg hfails]

/-- **The search** selects the least size if the last doubled size passes, and otherwise raises. -/
theorem selectStack_spec (hmax : 16384 ≤ maximum) (hup : MonotoneProbe maximum passed) :
    (passed (lastDouble 16384 maximum) = true ∧ ∃ stack,
        Halts (selectStack none maximum passed) (.ok stack) ∧
        IsLeast (PassingSizes maximum passed) stack) ∨
      (¬ passed (lastDouble 16384 maximum) = true ∧
        ∃ e, Halts (selectStack none maximum passed) (.error e)) := by
  obtain ⟨r, hends⟩ := exists_doubling_ends maximum passed
  rcases doubling_spec hmax hup hends with ⟨hlast, high, rfl, hbrackets⟩ | ⟨hlast, e, rfl⟩
  · obtain ⟨stack, hhalving, hleast⟩ := halving_spec hup hbrackets
    have hconfirm : Halts (fun _ => result (confirmStack none passed stack)) (.ok stack) := by
      rw [confirmStack_of_isLeast hleast]
      exact halts_result _
    exact Or.inl ⟨hlast, stack, (hends.halts.bind hhalving.halts).bind hconfirm, hleast⟩
  · exact Or.inr ⟨hlast, e, hends.halts.bind_error.bind_error⟩

/-- **When the search finds the least size.** For every maximum and every monotone outcome of the
probes, the search returns what it should exactly when no size on the grid passes, or the last of
the doubled sizes up to the maximum passes. -/
theorem selectStack_iff (hmax : 16384 ≤ maximum) (hup : MonotoneProbe maximum passed) :
    (∃ r, Halts (selectStack none maximum passed) r ∧ SelectsSmallest maximum passed r) ↔
      ((PassingSizes maximum passed).Nonempty → passed (lastDouble 16384 maximum) = true) := by
  rcases selectStack_spec hmax hup with ⟨hlast, stack, hhalts, hleast⟩ | ⟨hlast, e, hhalts⟩
  · refine ⟨fun _ _ => hlast, fun _ => ⟨_, hhalts, ?_, ?_, ?_⟩⟩
    · exact fun _ => ⟨stack, rfl, hleast, fun hle => pred_fails hleast (by omega)⟩
    · exact fun hnone => absurd ⟨stack, hleast.1⟩ hnone
    · rintro stack' ⟨⟩
      exact hleast.1.2.2.1
  · constructor
    · rintro ⟨r, hr, hselects, -, -⟩ hsome
      obtain ⟨stack, rfl, -⟩ := hselects hsome
      cases hhalts.unique hr
    · intro h
      refine ⟨_, hhalts, fun hsome => absurd (h hsome) hlast, fun _ => ⟨e, rfl⟩, ?_⟩
      rintro stack ⟨⟩

/-- A probe that passes from a size on is monotone. -/
theorem monotoneProbe_threshold (maximum threshold : ℕ) :
    MonotoneProbe maximum (fun size => decide (threshold ≤ size)) := by
  intro a b hab _ ha
  exact decide_eq_true ((of_decide_eq_true ha).trans hab)

/-- With a maximum of three pages, where the tests pass from 1,040 bytes on. -/
theorem selectStack_iff_sample :
    ∃ r, Halts (selectStack none 196608 (fun size => decide (1040 ≤ size))) r ∧
      SelectsSmallest 196608 (fun size => decide (1040 ≤ size)) r := by
  refine (selectStack_iff (by decide) (monotoneProbe_threshold 196608 1040)).mpr fun _ => ?_
  have hle : 1040 ≤ 16384 := by decide
  exact decide_eq_true (hle.trans (Nat.le_mul_of_pos_right 16384 (Nat.two_pow_pos _)))

/-- **The search misses a size that fits**: with a maximum of three pages, where the tests pass from
150,000 bytes on, the doubled sizes end at 131,072 bytes, and the search raises. -/
theorem selectStack_misses :
    16384 ≤ 196608 ∧ MonotoneProbe 196608 (fun size => decide (150000 ≤ size)) ∧
      150000 ∈ PassingSizes 196608 (fun size => decide (150000 ≤ size)) ∧
      Halts (selectStack none 196608 (fun size => decide (150000 ≤ size))) (.error
        (.valueError "the full corpus does not fit the declared memory limit")) ∧
      ¬ ∃ r, Halts (selectStack none 196608 (fun size => decide (150000 ≤ size))) r ∧
        SelectsSmallest 196608 (fun size => decide (150000 ≤ size)) r := by
  have hmem : 150000 ∈ PassingSizes 196608 (fun size => decide (150000 ≤ size)) :=
    ⟨Nat.succ_pos _, ⟨9375, rfl⟩, by decide, by decide⟩
  have hhalts : Halts (selectStack none 196608 (fun size => decide (150000 ≤ size))) (.error
      (.valueError "the full corpus does not fit the declared memory limit")) := by
    refine ⟨4, fun n hn => ?_⟩
    obtain ⟨n, rfl⟩ := Nat.exists_eq_add_of_le' hn
    rfl
  refine ⟨by decide, monotoneProbe_threshold 196608 150000, hmem, hhalts, ?_⟩
  rintro ⟨r, hr, hselects, -, -⟩
  obtain ⟨stack, rfl, -⟩ := hselects ⟨150000, hmem⟩
  cases hhalts.unique hr

end AvmSdk.Tools
