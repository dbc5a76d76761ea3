import Mathlib.Data.List.Basic
import Mathlib.Order.Lattice

/-!
# While loops

A round of a loop fails, ends the loop with a result, or goes on in another state.

* `loop round n s`: the loop with a bound on its rounds. `Halts run r`: for every bound that is
  large enough, the result is `r`.
* `Ends round s r`: the loop, started in `s`, ends with `r` after some rounds. The loop halts with
  what it ends with (`Ends.halts`).
* `exists_ends`, `Ends.invariant`: the rules of total and of partial correctness, by a measure and
  by an invariant.
* `Halts.bind`, `Halts.bind_error`: one program after another.
-/

namespace AvmSdk.Loop

variable {ε σ α γ : Type}

/-- How a round of a loop ends, if it does not fail. -/
inductive Round (σ α : Type)
  | again (s : σ)
  | done (a : α)

/-- A loop over at most the given number of rounds; `none` when these are not enough. -/
def loop (round : σ → Except ε (Round σ α)) : ℕ → σ → ExceptT ε Option α
  | 0, _ => none
  | n + 1, s =>
      match round s with
      | .error e => some (.error e)
      | .ok (.done a) => some (.ok a)
      | .ok (.again s') => loop round n s'

/-- A result that does not depend on the bound. -/
def result (r : Except ε α) : ExceptT ε Option α := some r

/-- With every large enough bound, the result is `r`. -/
def Halts (run : ℕ → ExceptT ε Option α) (r : Except ε α) : Prop :=
  ∃ n, ∀ m, n ≤ m → run m = some r

/-- There is one result only. -/
theorem Halts.unique {run : ℕ → ExceptT ε Option α} {r r' : Except ε α} (h : Halts run r)
    (h' : Halts run r') : r = r' := by
  obtain ⟨n, hn⟩ := h
  obtain ⟨m, hm⟩ := h'
  have heq := (hn (max n m) (le_max_left n m)).symm.trans (hm (max n m) (le_max_right n m))
  exact Option.some.inj heq

/-! ## One program after another -/

section

variable {x : ℕ → ExceptT ε Option α} {f : ℕ → α → ExceptT ε Option γ}

/-- A computation without a loop halts. -/
theorem halts_result (r : Except ε α) : Halts (fun _ => result r) r := ⟨0, fun _ _ => rfl⟩

/-- One loop after another, -/
theorem Halts.bind {a : α} {r : Except ε γ} (hx : Halts x (.ok a))
    (hf : Halts (fun n => f n a) r) : Halts (fun n => x n >>= f n) r := by
  obtain ⟨n, hn⟩ := hx
  obtain ⟨m, hm⟩ := hf
  refine ⟨max n m, fun k hk => ?_⟩
  show ExceptT.bind (x k) (f k) = some r
  rw [hn k ((le_max_left n m).trans hk)]
  exact hm k ((le_max_right n m).trans hk)

/-- and a loop that fails. -/
theorem Halts.bind_error {e : ε} (hx : Halts x (.error e)) :
    Halts (fun n => x n >>= f n) (.error e) := by
  obtain ⟨n, hn⟩ := hx
  refine ⟨n, fun k hk => ?_⟩
  show ExceptT.bind (x k) (f k) = some (.error e)
  rw [hn k hk]
  rfl

end

/-! ## Loops that end -/

variable {round : σ → Except ε (Round σ α)}

/-- From a state the loop ends with a result. -/
inductive Ends (round : σ → Except ε (Round σ α)) : σ → Except ε α → Prop
  | error {s : σ} {e : ε} (h : round s = .error e) : Ends round s (.error e)
  | done {s : σ} {a : α} (h : round s = .ok (.done a)) : Ends round s (.ok a)
  | again {s s' : σ} {r : Except ε α} (h : round s = .ok (.again s')) (hs : Ends round s' r) :
      Ends round s r

/-- The loop halts with what it ends with. -/
theorem Ends.halts {s : σ} {r : Except ε α} (h : Ends round s r) :
    Halts (fun n => loop round n s) r := by
  induction h with
  | error h =>
      refine ⟨1, fun m hm => ?_⟩
      obtain ⟨m, rfl⟩ := Nat.exists_eq_add_of_le' hm
      show loop round (m + 1) _ = _
      rw [loop, h]
  | done h =>
      refine ⟨1, fun m hm => ?_⟩
      obtain ⟨m, rfl⟩ := Nat.exists_eq_add_of_le' hm
      show loop round (m + 1) _ = _
      rw [loop, h]
  | again h _ ih =>
      obtain ⟨n, hn⟩ := ih
      refine ⟨n + 1, fun m hm => ?_⟩
      obtain ⟨m, rfl⟩ := Nat.exists_eq_add_of_le' ((Nat.le_add_left 1 n).trans hm)
      show loop round (m + 1) _ = _
      rw [loop, h]
      exact hn m (Nat.le_of_succ_le_succ hm)

/-- **Termination**: a loop ends if every further round lowers a measure, under an invariant. -/
theorem exists_ends (I : σ → Prop) (μ : σ → ℕ)
    (hagain : ∀ s s', I s → round s = .ok (.again s') → I s' ∧ μ s' < μ s) {s : σ} (hs : I s) :
    ∃ r, Ends round s r := by
  induction hμ : μ s using Nat.strong_induction_on generalizing s with
  | h n ih =>
      rcases hround : round s with e | ⟨s' | a⟩
      · exact ⟨_, .error hround⟩
      · obtain ⟨hs', hlt⟩ := hagain s s' hs hround
        obtain ⟨r, hr⟩ := ih (μ s') (hμ ▸ hlt) hs' rfl
        exact ⟨r, .again hround hr⟩
      · exact ⟨_, .done hround⟩

/-- **The invariant rule**: what every round keeps, and what follows from it when the loop ends. -/
theorem Ends.invariant {s : σ} {r : Except ε α} (h : Ends round s r) (I : σ → Prop)
    (Q : Except ε α → Prop) (hagain : ∀ s s', I s → round s = .ok (.again s') → I s')
    (hdone : ∀ s a, I s → round s = .ok (.done a) → Q (.ok a))
    (herror : ∀ s e, I s → round s = .error e → Q (.error e)) (hs : I s) : Q r := by
  induction h with
  | error h => exact herror _ _ hs h
  | done h => exact hdone _ _ hs h
  | again h _ ih => exact ih (hagain _ _ hs h)

end AvmSdk.Loop
