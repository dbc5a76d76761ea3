import Mathlib.Algebra.BigOperators.Group.List.Basic
import Mathlib.Algebra.Ring.Nat
import Mathlib.Data.List.Range

/-!
# Runs and their histories

A transition system whose steps carry an event, and the runs of it together with the list of the
events so far, the latest last.

* `Run.invariant`: what holds at the start and is preserved by a step, of the history and the state
  together. `Run.before`: the state in which an event of the history happened. `Run.since`,
  `Run.between`: what grows with every step.
* `Run.lift`: a run is a run of every system that allows its steps. `Run.restrict_iff`: the runs of a
  system that allows some of the steps.
* `Run.simulate`: runs of one system followed by another, event by event.
* `Run.balance`, `Run.ascending`, `Run.numbered`, `Run.spent`: kinds of history facts that follow
  from what one step does: sums over the events, keys that ascend, numbers given out one by one,
  numbers spent once.
-/

namespace AvmSdk.Trace

variable {σ τ ε κ : Type} {init : σ → Prop} {step : σ → ε → σ → Prop}

/-- The runs of a system, with their histories. -/
inductive Run (init : σ → Prop) (step : σ → ε → σ → Prop) : List ε → σ → Prop
  /-- Nothing has happened. -/
  | start {s : σ} (h : init s) : Run init step [] s
  /-- One more event. -/
  | snoc {es : List ε} {s t : σ} {e : ε} (hrun : Run init step es s) (h : step s e t) :
      Run init step (es ++ [e]) t

namespace Run

variable {es : List ε} {s : σ}

/-- **The invariant rule.** -/
theorem invariant {I : List ε → σ → Prop} (hrun : Run init step es s)
    (hinit : ∀ s, init s → I [] s)
    (hstep : ∀ es s e t, Run init step es s → I es s → step s e t → I (es ++ [e]) t) : I es s := by
  induction hrun with
  | start h => exact hinit _ h
  | snoc hrun h ih => exact hstep _ _ _ _ hrun ih h

/-- The invariant rule for a property of the state. -/
theorem stateInvariant {I : σ → Prop} (hrun : Run init step es s) (hinit : ∀ s, init s → I s)
    (hstep : ∀ s e t, I s → step s e t → I t) : I s :=
  hrun.invariant (I := fun _ s => I s) hinit fun _ s e t _ hs h => hstep s e t hs h

/-- Every event of a history happened in a state that the events before it lead to. -/
theorem before {pre post : List ε} {e : ε} (hrun : Run init step (pre ++ e :: post) s) :
    ∃ t u, Run init step pre t ∧ step t e u := by
  generalize hes : pre ++ e :: post = es at hrun
  induction hrun generalizing post with
  | start h => exact absurd hes (by simp)
  | @snoc es s t e' hrun h ih =>
      rcases List.eq_nil_or_concat post with rfl | ⟨post', last, rfl⟩
      · obtain ⟨rfl, hlast⟩ := List.append_inj' hes rfl
        cases hlast
        exact ⟨s, t, hrun, h⟩
      · rw [List.concat_eq_append, ← List.cons_append, ← List.append_assoc] at hes
        exact ih (List.append_inj' hes rfl).1

/-- **What grows along a run.** A reflexive and transitive relation that every step satisfies holds
between every earlier state and the last one. -/
theorem since {R : σ → σ → Prop} {pre post : List ε} (hrefl : ∀ s, R s s)
    (htrans : ∀ s t u, R s t → R t u → R s u) (hrun : Run init step (pre ++ post) s)
    (hstep : ∀ es s e t, Run init step es s → step s e t → R s t) :
    ∃ t, Run init step pre t ∧ R t s := by
  generalize hes : pre ++ post = es at hrun
  induction hrun generalizing post with
  | start h =>
      obtain ⟨rfl, -⟩ := List.append_eq_nil_iff.mp hes
      exact ⟨_, .start h, hrefl _⟩
  | @snoc es s t e hrun h ih =>
      rcases List.eq_nil_or_concat post with rfl | ⟨post', last, rfl⟩
      · rw [List.append_nil] at hes
        exact ⟨t, hes ▸ .snoc hrun h, hrefl t⟩
      · rw [List.concat_eq_append, ← List.append_assoc] at hes
        obtain ⟨u, hu, hR⟩ := ih (List.append_inj' hes rfl).1
        exact ⟨u, hu, htrans _ _ _ hR (hstep _ _ _ _ hrun h)⟩

/-- The last step of a run. -/
theorem last {e : ε} (hrun : Run init step (es ++ [e]) s) : ∃ t, Run init step es t ∧ step t e s := by
  generalize hes : es ++ [e] = all at hrun
  cases hrun with
  | start h => exact absurd hes (by simp)
  | snoc hrun h =>
      obtain ⟨rfl, hlast⟩ := List.append_inj' hes rfl
      cases hlast
      exact ⟨_, hrun, h⟩

/-- **What grows between two events** of a run: between the state after the first and the state in
which the second happened. -/
theorem between {R : σ → σ → Prop} {pre post : List ε} {e f : ε} (hrefl : ∀ s, R s s)
    (htrans : ∀ s t u, R s t → R t u → R s u) (hrun : Run init step (pre ++ e :: post) s)
    (hf : f ∈ post) (hstep : ∀ es s e t, Run init step es s → step s e t → R s t) :
    ∃ s t u v, Run init step pre s ∧ step s e t ∧ R t u ∧ (∃ es, Run init step es u) ∧ step u f v := by
  obtain ⟨mid, rest, rfl⟩ := List.append_of_mem hf
  have hsplit : pre ++ e :: (mid ++ f :: rest) = (pre ++ [e] ++ mid) ++ f :: rest := by simp
  rw [hsplit] at hrun
  obtain ⟨u, v, hu, huv⟩ := hrun.before
  obtain ⟨t, ht, hR⟩ := since hrefl htrans hu hstep
  obtain ⟨s, hs, hst⟩ := ht.last
  exact ⟨s, t, u, v, hs, hst, hR, ⟨_, hu⟩, huv⟩

/-- A run is a run of any system that has its starts and the steps that it takes. -/
theorem lift {init' : σ → Prop} {step' : σ → ε → σ → Prop} (hrun : Run init step es s)
    (hinit : ∀ s, init s → init' s)
    (hstep : ∀ es s e t, Run init step es s → step s e t → step' s e t) : Run init' step' es s := by
  induction hrun with
  | start h => exact .start (hinit _ h)
  | snoc hrun h ih => exact .snoc ih (hstep _ _ _ _ hrun h)

/-- **Runs of a system that takes fewer steps**: those whose events are allowed. -/
theorem restrict_iff {init' : σ → Prop} {step' : σ → ε → σ → Prop} {A : Prop} {P Q : ε → Prop}
    (hes : ∀ e ∈ es, Q e) (hinit : ∀ s, init' s ↔ init s ∧ A)
    (hstep : ∀ es s e t, Run init step es s → Q e → (step' s e t ↔ step s e t ∧ P e)) :
    Run init' step' es s ↔ Run init step es s ∧ A ∧ ∀ e ∈ es, P e := by
  constructor
  · intro hrun
    induction hrun with
    | start h =>
        obtain ⟨h, hA⟩ := (hinit _).mp h
        exact ⟨.start h, hA, List.forall_mem_nil _⟩
    | snoc _ h ih =>
        rw [List.forall_mem_append, List.forall_mem_singleton] at hes
        obtain ⟨hrun, hA, hall⟩ := ih hes.1
        obtain ⟨h, hP⟩ := (hstep _ _ _ _ hrun hes.2).mp h
        refine ⟨.snoc hrun h, hA, ?_⟩
        rw [List.forall_mem_append, List.forall_mem_singleton]
        exact ⟨hall, hP⟩
  · rintro ⟨hrun, hA, hall⟩
    induction hrun with
    | start h => exact .start ((hinit _).mpr ⟨h, hA⟩)
    | snoc hrun h ih =>
        rw [List.forall_mem_append, List.forall_mem_singleton] at hes hall
        exact .snoc (ih hes.1 hall.1) ((hstep _ _ _ _ hrun hes.2).mpr ⟨h, hall.2⟩)

/-- **Simulation.** If every start is matched and every step from related states is matched by a
step with the same event, then every run is matched by a run with the same history. -/
theorem simulate {init' : τ → Prop} {step' : τ → ε → τ → Prop} {R : σ → τ → Prop}
    (hrun : Run init step es s) (hinit : ∀ s, init s → ∃ t, init' t ∧ R s t)
    (hstep : ∀ s e s' t, R s t → step s e s' → ∃ t', step' t e t' ∧ R s' t') :
    ∃ t, Run init' step' es t ∧ R s t := by
  induction hrun with
  | start h =>
      obtain ⟨t, ht, hR⟩ := hinit _ h
      exact ⟨t, .start ht, hR⟩
  | snoc hrun h ih =>
      obtain ⟨t, ht, hR⟩ := ih
      obtain ⟨t', hstep', hR'⟩ := hstep _ _ _ t hR h
      exact ⟨t', .snoc ht hstep', hR'⟩

/-- **Balance.** A quantity that every step changes by what flows in and out is the difference of
the two flows of the history. -/
theorem balance (worth : σ → ℕ) (inflow outflow : ε → ℕ) (hrun : Run init step es s)
    (hinit : ∀ s, init s → worth s = 0)
    (hstep : ∀ es s e t, Run init step es s → step s e t →
      worth t + outflow e = worth s + inflow e) :
    worth s + (es.map outflow).sum = (es.map inflow).sum := by
  induction hrun with
  | start h => exact hinit _ h
  | snoc hrun h ih =>
      have hbalance := hstep _ _ _ _ hrun h
      rw [List.map_append, List.map_append, List.sum_append, List.sum_append, List.map_singleton,
        List.map_singleton, List.sum_singleton, List.sum_singleton]
      omega

/-- **Ascending keys.** If the state keeps a bound on the keys seen so far and every selected event
exceeds it, then the keys of the selected events ascend. -/
theorem ascending (selected : ε → Prop) [DecidablePred selected] (key : ε → ℕ) (bound : σ → ℕ)
    (hrun : Run init step es s)
    (hstep : ∀ es s e t, Run init step es s → step s e t →
      bound s ≤ bound t ∧ (selected e → bound s < key e ∧ key e ≤ bound t)) :
    ((es.filter (selected ·)).map key).Pairwise (· < ·) ∧
      ∀ e ∈ es, selected e → key e ≤ bound s := by
  induction hrun with
  | start h => exact ⟨.nil, fun _ h => absurd h List.not_mem_nil⟩
  | @snoc es s t e hrun h ih =>
      obtain ⟨hpairwise, hbound⟩ := ih
      obtain ⟨hmono, hkey⟩ := hstep _ _ _ _ hrun h
      constructor
      · rw [List.filter_append, List.map_append, List.pairwise_append]
        refine ⟨hpairwise, ?_, ?_⟩
        · by_cases hsel : selected e <;> simp [hsel]
        · intro k hk k' hk'
          obtain ⟨d, hd, rfl⟩ := List.mem_map.mp hk
          obtain ⟨d', hd', rfl⟩ := List.mem_map.mp hk'
          obtain ⟨hdmem, hdsel⟩ := List.mem_filter.mp hd
          obtain ⟨hd'mem, hd'sel⟩ := List.mem_filter.mp hd'
          rw [List.mem_singleton.mp hd'mem] at hd'sel ⊢
          exact (hbound d hdmem (of_decide_eq_true hdsel)).trans_lt
            (hkey (of_decide_eq_true hd'sel)).1
      · intro d hd hsel
        rcases List.mem_append.mp hd with hd | hd
        · exact (hbound d hd hsel).trans hmono
        · rw [List.mem_singleton.mp hd] at hsel ⊢
          exact (hkey hsel).2

/-- **Numbers given out one by one.** If the state counts the selected events and each of them
carries the next number, then they carry 1, 2, 3 and so on. -/
theorem numbered (selected : ε → Prop) [DecidablePred selected] (number : ε → ℕ) (count : σ → ℕ)
    (hrun : Run init step es s) (hinit : ∀ s, init s → count s = 0)
    (hstep : ∀ es s e t, Run init step es s → step s e t →
      (selected e → number e = count s + 1 ∧ count t = count s + 1) ∧
      (¬ selected e → count t = count s)) :
    (es.filter (selected ·)).map number = List.range' 1 (count s) := by
  induction hrun with
  | start h => rw [hinit _ h]; rfl
  | @snoc es s t e hrun h ih =>
      obtain ⟨hsel, hother⟩ := hstep _ _ _ _ hrun h
      rw [List.filter_append, List.map_append, ih]
      by_cases he : selected e
      · obtain ⟨hnumber, hcount⟩ := hsel he
        have hkept : [e].filter (selected ·) = [e] := by simp [he]
        rw [hkept, List.map_singleton, hnumber, hcount, List.range'_concat, Nat.one_mul,
          Nat.add_comm 1]
      · have hdropped : [e].filter (selected ·) = [] := by simp [he]
        rw [hdropped, List.map_nil, List.append_nil, hother he]

/-- **Numbers spent once.** The state holds some open numbers, below a count that grows; numbers that
become open are beyond the count, and a selected event spends an open number. Then no number is
spent twice, and none that was spent is open. -/
theorem spent (selected : ε → Prop) [DecidablePred selected] (number : ε → ℕ) (count : σ → ℕ)
    (opened : σ → ℕ → Prop) (hrun : Run init step es s)
    (hbound : ∀ es s n, Run init step es s → opened s n → n ≤ count s)
    (hstep : ∀ es s e t, Run init step es s → step s e t →
      count s ≤ count t ∧ (∀ n, opened t n → opened s n ∨ count s < n) ∧
        (selected e → opened s (number e) ∧ ¬ opened t (number e))) :
    ((es.filter (selected ·)).map number).Nodup ∧
      ∀ e ∈ es, selected e → number e ≤ count s ∧ ¬ opened s (number e) := by
  induction hrun with
  | start h => exact ⟨.nil, fun _ h => absurd h List.not_mem_nil⟩
  | @snoc es s t e hrun h ih =>
      obtain ⟨hnodup, hold⟩ := ih
      obtain ⟨hmono, hfresh, hspend⟩ := hstep _ _ _ _ hrun h
      constructor
      · rw [List.filter_append, List.map_append, List.nodup_append]
        refine ⟨hnodup, ?_, ?_⟩
        · by_cases hsel : selected e <;> simp [hsel]
        · intro k hk k' hk' heq
          obtain ⟨d, hd, rfl⟩ := List.mem_map.mp hk
          obtain ⟨d', hd', rfl⟩ := List.mem_map.mp hk'
          obtain ⟨hdmem, hdsel⟩ := List.mem_filter.mp hd
          obtain ⟨hd'mem, hd'sel⟩ := List.mem_filter.mp hd'
          rw [List.mem_singleton.mp hd'mem] at hd'sel heq
          have hopen := (hspend (of_decide_eq_true hd'sel)).1
          rw [← heq] at hopen
          exact (hold d hdmem (of_decide_eq_true hdsel)).2 hopen
      · intro d hd hsel
        rcases List.mem_append.mp hd with hd | hd
        · obtain ⟨hle, hclosed⟩ := hold d hd hsel
          refine ⟨hle.trans hmono, fun hopen => ?_⟩
          rcases hfresh _ hopen with hopen | hlt
          · exact hclosed hopen
          · exact absurd hle (Nat.not_le.mpr hlt)
        · rw [List.mem_singleton.mp hd] at hsel ⊢
          obtain ⟨hopen, hclosed⟩ := hspend hsel
          exact ⟨(hbound _ _ _ hrun hopen).trans hmono, hclosed⟩

end Run

/-! ## One more event -/

section

variable {α : Type} (es : List ε) (e : ε)

/-- A sum over a history. -/
theorem sum_map_snoc (f : ε → ℕ) : ((es ++ [e]).map f).sum = (es.map f).sum + f e := by
  rw [List.map_append, List.sum_append, List.map_singleton, List.sum_singleton]

/-- The events of a kind. -/
theorem length_filter_snoc (p : ε → Prop) [DecidablePred p] :
    ((es ++ [e]).filter (p ·)).length = (es.filter (p ·)).length + if p e then 1 else 0 := by
  rw [List.filter_append, List.length_append]
  by_cases h : p e <;> simp [h]

/-- A sum over the events of a kind. -/
theorem sum_filter_snoc (p : ε → Prop) [DecidablePred p] (f : ε → ℕ) :
    (((es ++ [e]).filter (p ·)).map f).sum =
      ((es.filter (p ·)).map f).sum + if p e then f e else 0 := by
  rw [List.filter_append, List.map_append, List.sum_append]
  by_cases h : p e <;> simp [h]

/-- What some of the events leave. -/
theorem filterMap_snoc (f : ε → Option α) :
    (es ++ [e]).filterMap f = es.filterMap f ++ (f e).toList := by
  rw [List.filterMap_append]
  cases h : f e <;> simp [h]

end

end AvmSdk.Trace
