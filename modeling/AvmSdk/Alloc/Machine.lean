import Mathlib.Data.List.Basic

/-!
# Machines and simulation

A machine answers a call and moves to another state.

* `run`: a sequence of calls, with the list of replies.
* `run_invariant`: what every call preserves holds after every run.
* `run_append`: a sequence of calls can be interrupted. `run_related`: two machines side by side.
* `Simulates.run`: a machine that simulates another call by call gives the same replies over whole
  runs, and ends in a related state.
-/

namespace AvmSdk.Alloc

variable {σ τ ι ρ κ π : Type}

/-- The calls one after another, with their replies. -/
def run (step : ι → σ → ρ × σ) : List ι → σ → List ρ × σ
  | [], s => ([], s)
  | i :: is, s =>
      let (r, s') := step i s
      let (rs, t) := run step is s'
      (r :: rs, t)

/-- **The invariant rule**, for the calls of a run. -/
theorem run_invariant_of_mem {step : ι → σ → ρ × σ} {I : σ → Prop} {is : List ι}
    (hstep : ∀ i ∈ is, ∀ s, I s → I (step i s).2) {s : σ} (hs : I s) : I (run step is s).2 := by
  induction is generalizing s with
  | nil => exact hs
  | cons i is ih =>
      rw [List.forall_mem_cons] at hstep
      exact ih hstep.2 (hstep.1 s hs)

/-- **The invariant rule.** -/
theorem run_invariant {step : ι → σ → ρ × σ} {I : σ → Prop} (hstep : ∀ i s, I s → I (step i s).2)
    (is : List ι) {s : σ} (hs : I s) : I (run step is s).2 :=
  run_invariant_of_mem (fun i _ => hstep i) hs

/-- Every call has a reply. -/
@[simp] theorem length_run (step : ι → σ → ρ × σ) (is : List ι) (s : σ) :
    (run step is s).1.length = is.length := by
  induction is generalizing s with
  | nil => rfl
  | cons i is ih => exact congrArg Nat.succ (ih (step i s).2)

/-- The calls of a list that is computed from another one. -/
theorem run_map {step : ι → σ → ρ × σ} {call : κ → ι} (is : List κ) (s : σ) :
    run step (is.map call) s = run (fun i => step (call i)) is s := by
  induction is generalizing s with
  | nil => rfl
  | cons i is ih => simp only [List.map_cons, run, ih]

/-- Calls, and more calls behind them. -/
theorem run_append (step : ι → σ → ρ × σ) (is js : List ι) (s : σ) : run step (is ++ js) s =
    ((run step is s).1 ++ (run step js (run step is s).2).1, (run step js (run step is s).2).2) := by
  induction is generalizing s with
  | nil => rfl
  | cons i is ih =>
      simp only [List.cons_append, run, ih]

/-- **Two machines side by side**: if related states stay related under each of the calls, the
replies satisfy a condition and look the same, then this is so for all calls one after another. -/
theorem run_related (R : σ → τ → Prop) (P : ι → ρ → π → Prop) (look : ρ → κ) (look' : π → κ)
    {step : ι → σ → ρ × σ} {step' : ι → τ → π × τ} (is : List ι)
    (hstep : ∀ i ∈ is, ∀ s t, R s t → P i (step i s).1 (step' i t).1 ∧
      look (step i s).1 = look' (step' i t).1 ∧ R (step i s).2 (step' i t).2)
    {s : σ} {t : τ} (hst : R s t) :
    (∀ (k : ℕ) (i : ι), is[k]? = some i → ∃ r p, (run step is s).1[k]? = some r ∧
        (run step' is t).1[k]? = some p ∧ P i r p) ∧
      (run step is s).1.map look = (run step' is t).1.map look' ∧
      R (run step is s).2 (run step' is t).2 := by
  induction is generalizing s t with
  | nil => exact ⟨nofun, rfl, hst⟩
  | cons i is ih =>
      rw [List.forall_mem_cons] at hstep
      obtain ⟨hreply, hlook, hnext⟩ := hstep.1 s t hst
      obtain ⟨hreplies, hlooks, hend⟩ := ih hstep.2 hnext
      refine ⟨fun k j hj => ?_, congrArg₂ List.cons hlook hlooks, hend⟩
      cases k with
      | zero =>
          obtain rfl := Option.some.inj hj
          exact ⟨_, _, rfl, rfl, hreply⟩
      | succ k => exact hreplies k j hj

/-- Each call of the first machine is answered like its image by the second, from related states,
and leads to related states. -/
def Simulates (R : σ → τ → Prop) (step : ι → σ → ρ × σ) (step' : κ → τ → π × τ) (call : ι → κ)
    (reply : ρ → π) : Prop :=
  ∀ i s t, R s t → reply (step i s).1 = (step' (call i) t).1 ∧ R (step i s).2 (step' (call i) t).2

/-- **Simulation over runs.** -/
theorem Simulates.run {R : σ → τ → Prop} {step : ι → σ → ρ × σ} {step' : κ → τ → π × τ}
    {call : ι → κ} {reply : ρ → π} (h : Simulates R step step' call reply) (is : List ι) {s : σ}
    {t : τ} (hst : R s t) :
    (Alloc.run step is s).1.map reply = (Alloc.run step' (is.map call) t).1 ∧
      R (Alloc.run step is s).2 (Alloc.run step' (is.map call) t).2 := by
  induction is generalizing s t with
  | nil => exact ⟨rfl, hst⟩
  | cons i is ih =>
      obtain ⟨hreply, hnext⟩ := h i s t hst
      obtain ⟨hreplies, hend⟩ := ih hnext
      refine ⟨?_, hend⟩
      show reply (step i s).1 :: (Alloc.run step is (step i s).2).1.map reply = _
      rw [hreply, hreplies]
      rfl

end AvmSdk.Alloc
