import AvmSdk.Wire.FixedWidth

/-!
# Iterators

An iterator is a state and a function `next` that yields an item and the state after it, or stops.

* `Yields next s as t`: a run that yields the items `as` and arrives at `t`; `Exhausts next s as`:
  the run goes on until `next` stops. `drain`, the loop with a bound on its rounds, returns these
  items (`drain_of_exhausts`).
* `exhausts_records`: an iterator over fixed-width records yields the records of its input.
-/

namespace AvmSdk.Wire

variable {σ α β : Type}

/-- A run of an iterator: from `s` it yields `as` and arrives at `t`. -/
inductive Yields (next : σ → Option (α × σ)) : σ → List α → σ → Prop
  /-- No step. -/
  | done (s : σ) : Yields next s [] s
  /-- One step and a run after it. -/
  | step {s s' t : σ} {a : α} {as : List α} (h : next s = some (a, s')) (hs : Yields next s' as t) :
      Yields next s (a :: as) t

/-- A run of an iterator to its end. -/
def Exhausts (next : σ → Option (α × σ)) (s : σ) (as : List α) : Prop :=
  ∃ t, Yields next s as t ∧ next t = none

/-- The items of an iterator, over at most the given number of rounds. -/
def drain (next : σ → Option (α × σ)) : ℕ → σ → List α
  | 0, _ => []
  | n + 1, s =>
      match next s with
      | some (a, s') => a :: drain next n s'
      | none => []

variable {next : σ → Option (α × σ)}

/-- An iterator that stops is exhausted by the empty run. -/
theorem exhausts_nil {s : σ} (h : next s = none) : Exhausts next s [] := ⟨s, .done s, h⟩

/-- One step in front of an exhausting run. -/
theorem exhausts_cons {s s' : σ} {a : α} {as : List α} (h : next s = some (a, s'))
    (hs : Exhausts next s' as) : Exhausts next s (a :: as) := by
  obtain ⟨t, hrun, hend⟩ := hs
  exact ⟨t, .step h hrun, hend⟩

/-- With rounds to spare, the loop returns the items of the run. -/
theorem drain_of_exhausts {s : σ} {as : List α} (h : Exhausts next s as) {n : ℕ}
    (hn : as.length < n) : drain next n s = as := by
  obtain ⟨t, hrun, hend⟩ := h
  induction hrun generalizing n with
  | done s =>
      obtain ⟨n, rfl⟩ := Nat.exists_eq_add_of_lt hn
      rw [drain, hend]
  | @step s s' t a as hnext hs ih =>
      cases n with
      | zero => omega
      | succ n =>
          rw [List.length_cons] at hn
          rw [drain, hnext]
          exact congrArg (a :: ·) (ih (by omega) hend)

/-- A run of an iterator that is exhausted by `cs` yields the front of `cs` and leaves the rest. -/
theorem Exhausts.of_yields {s t : σ} {as cs : List α} (hrun : Yields next s as t)
    (h : Exhausts next s cs) : ∃ bs, cs = as ++ bs ∧ Exhausts next t bs := by
  induction hrun generalizing cs with
  | done s => exact ⟨cs, rfl, h⟩
  | @step s s' t a as hnext hs ih =>
      obtain ⟨u, hcs, hend⟩ := h
      cases hcs with
      | done => rw [hend] at hnext; cases hnext
      | step hnext' hs' =>
          rw [hnext] at hnext'
          cases hnext'
          obtain ⟨bs, rfl, hbs⟩ := ih ⟨u, hs', hend⟩
          exact ⟨bs, rfl, hbs⟩

/-- **Iterators over records.** `at_ i` is the state at position `i` of the input `bs`. If the
iterator yields the record that stands at its position and stops at the end of the input, then
from a position where records remain it yields exactly these. -/
theorem exhausts_records (c : FixedWidth β α) {bs : List β} (at_ : ℕ → σ)
    (hnext : ∀ i a, c.enc a <+: bs.drop i → next (at_ i) = some (a, at_ (i + c.width)))
    (hstop : ∀ i, bs.length ≤ i → next (at_ i) = none) :
    ∀ (as : List α) (i : ℕ), bs.drop i = as.flatMap c.enc → Exhausts next (at_ i) as
  | [], i, h => exhausts_nil (hstop i (by simpa using h))
  | a :: as, i, h => by
      rw [List.flatMap_cons] at h
      have hrest : bs.drop (i + c.width) = as.flatMap c.enc := by
        rw [← List.drop_drop, h, List.drop_left' (c.length_enc a)]
      exact exhausts_cons (hnext i a (h ▸ List.prefix_append _ _))
        (exhausts_records c at_ hnext hstop as _ hrest)

end AvmSdk.Wire
