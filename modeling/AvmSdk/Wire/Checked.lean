import Mathlib.Data.List.Basic
import Mathlib.Data.List.Chain

/-!
# Checked sequences of steps

Facts about when a sequence of checks in `Except` goes through: what a successful bind, guard or
loop establishes. A validator is read through these rules and never unfolded into its error cases.

* `bind_ok_iff`, `okOr_ok_iff`, `failIf_ok_iff`, `forM_ok_iff`: success of the basic steps.
* `Raises x E`: every error of `x` satisfies `E`; one rule for each way of composing steps.
  `Ensures x P`: every result of `x` satisfies `P`.
* `checkAscending`: the loop that remembers the previous key and stops at the first key that does
  not exceed it; `checkAscending_ok_iff` says that it accepts exactly the chains.
-/

namespace AvmSdk.Wire

variable {ε α γ κ : Type}

/-- Stop with an error when a condition holds. -/
def failIf (c : Prop) [Decidable c] (e : ε) : Except ε Unit :=
  if c then .error e else .ok ()

/-- The value of an option, or an error in place of the missing one. -/
def okOr (x : Option α) (e : ε) : Except ε α :=
  match x with
  | some a => .ok a
  | none => .error e

/-- A value is passed on, -/
@[simp] theorem okOr_some (a : α) (e : ε) : okOr (some a) e = .ok a := rfl

/-- and a missing one is the error. -/
@[simp] theorem okOr_none (e : ε) : okOr (none : Option α) e = .error e := rfl

/-- A result is handed on, -/
@[simp] theorem ok_bind (a : α) (f : α → Except ε γ) : (Except.ok a >>= f) = f a := rfl

/-- and an error ends the computation. -/
@[simp] theorem error_bind (e : ε) (f : α → Except ε γ) : (Except.error e >>= f) = .error e := rfl

/-- A guard succeeds exactly when its condition fails. -/
@[simp] theorem failIf_ok_iff {c : Prop} [Decidable c] {e : ε} {u : Unit} :
    failIf c e = .ok u ↔ ¬ c := by
  by_cases h : c <;> simp [failIf, h]

/-- `okOr` succeeds exactly with the value of the option. -/
@[simp] theorem okOr_ok_iff {x : Option α} {e : ε} {a : α} : okOr x e = .ok a ↔ x = some a := by
  cases x <;> simp [okOr]

/-- A sequence of two steps succeeds exactly when each succeeds in turn. -/
@[simp] theorem bind_ok_iff {x : Except ε α} {f : α → Except ε γ} {c : γ} :
    (x >>= f) = .ok c ↔ ∃ a, x = .ok a ∧ f a = .ok c := by
  cases x <;> simp [bind, Except.bind]

/-- A guard in front succeeds exactly when its condition fails and the rest succeeds. -/
theorem failIf_bind_ok_iff {c : Prop} [Decidable c] {e : ε} {f : Unit → Except ε γ} {r : γ} :
    (failIf c e >>= f) = .ok r ↔ ¬ c ∧ f () = .ok r := by
  by_cases h : c <;> simp [failIf, h]

/-- Returning a value succeeds with that value. -/
@[simp] theorem pure_ok_iff {a b : α} : (pure a : Except ε α) = .ok b ↔ a = b := by
  simp [pure, Except.pure]

/-- Mapping over a result succeeds exactly when the result does. -/
@[simp] theorem map_ok_iff {x : Except ε α} {f : α → γ} {c : γ} :
    (f <$> x) = .ok c ↔ ∃ a, x = .ok a ∧ f a = c := by
  cases x <;> simp [Functor.map, Except.map]

/-- A value returned under a condition. -/
theorem ite_ok_iff {c : Prop} [Decidable c] {e : ε} {a b : α} :
    (if c then .ok a else .error e : Except ε α) = .ok b ↔ c ∧ a = b := by
  by_cases h : c <;> simp [h]

/-- Naming the error otherwise keeps the successes. -/
@[simp] theorem mapError_ok_iff {ε' : Type} {x : Except ε α} {f : ε → ε'} {a : α} :
    x.mapError f = .ok a ↔ x = .ok a := by
  cases x <;> simp [Except.mapError]

/-- A loop of checks succeeds exactly when every check does. -/
theorem forM_ok_iff {xs : List α} {check : α → Except ε Unit} {u : Unit} :
    xs.forM check = .ok u ↔ ∀ a ∈ xs, check a = .ok () := by
  induction xs with
  | nil => simp [List.forM]
  | cons a xs ih =>
      have hstep : (a :: xs).forM check = (check a >>= fun _ => xs.forM check) := rfl
      rw [hstep, bind_ok_iff]
      simp only [ih, List.mem_cons, forall_eq_or_imp]
      exact ⟨fun ⟨⟨⟩, h, hs⟩ => ⟨h, hs⟩, fun ⟨h, hs⟩ => ⟨(), h, hs⟩⟩

/-! ## Equal computations -/

/-- Two steps are equal if they continue equally after a success. -/
theorem bind_congr_of_ok {x : Except ε α} {f g : α → Except ε γ}
    (h : ∀ a, x = .ok a → f a = g a) : (x >>= f) = x >>= g := by
  cases x with
  | error e => rfl
  | ok a => exact h a rfl

/-- Only the truth of the condition counts. -/
theorem failIf_congr {c d : Prop} [Decidable c] [Decidable d] {e : ε} (h : c ↔ d) :
    failIf c e = failIf d e := if_congr h rfl rfl

/-- Two guards with one error are one guard. -/
theorem failIf_or {c d : Prop} [Decidable c] [Decidable d] {e : ε} :
    failIf (c ∨ d) e = failIf c e >>= fun _ => failIf d e := by
  by_cases hc : c
  · rw [failIf, if_pos (Or.inl hc), failIf, if_pos hc]
    rfl
  · rw [failIf_congr (or_iff_right hc), failIf, failIf, if_neg hc]
    rfl

/-- A loop of guards with one error is one guard. -/
theorem forM_eq_failIf {xs : List α} {check : α → Except ε Unit} {p : α → Prop} [DecidablePred p]
    {e : ε} (h : ∀ a ∈ xs, check a = failIf (p a) e) :
    xs.forM check = failIf (∃ a ∈ xs, p a) e := by
  induction xs with
  | nil =>
      rw [failIf, if_neg (by simp)]
      rfl
  | cons a xs ih =>
      have hstep : (a :: xs).forM check = (check a >>= fun _ => xs.forM check) := rfl
      rw [hstep, h a List.mem_cons_self, ih fun b hb => h b (List.mem_cons_of_mem _ hb),
        ← failIf_or]
      apply failIf_congr
      simp only [List.mem_cons, exists_eq_or_imp]

/-! ## Errors -/

/-- Every error that `x` can end with satisfies `E`. -/
def Raises (x : Except ε α) (E : ε → Prop) : Prop := ∀ e, x = .error e → E e

variable {E : ε → Prop}

/-- A result raises nothing, -/
theorem raises_ok (a : α) : Raises (.ok a) E := nofun

/-- in either notation, -/
theorem raises_pure (a : α) : Raises (pure a : Except ε α) E := nofun

/-- and an error raises itself. -/
theorem raises_error {e : ε} (h : E e) : Raises (.error e : Except ε α) E := by
  rintro e' ⟨⟩
  exact h

/-- A guard raises its own error, under its own condition. -/
theorem raises_failIf {c : Prop} [Decidable c] {e : ε} (h : c → E e) : Raises (failIf c e) E := by
  by_cases hc : c
  · rw [failIf, if_pos hc]
    exact raises_error (h hc)
  · rw [failIf, if_neg hc]
    exact raises_ok ()

/-- A missing value raises the error that stands for it. -/
theorem raises_okOr {x : Option α} {e : ε} (h : x = none → E e) : Raises (okOr x e) E := by
  cases x with
  | none => exact raises_error (h rfl)
  | some a => exact raises_ok a

/-- **Two steps** raise the errors of the first, and those of the second after a success. -/
theorem Raises.bind {x : Except ε α} {f : α → Except ε γ} (hx : Raises x E)
    (hf : ∀ a, x = .ok a → Raises (f a) E) : Raises (x >>= f) E := by
  cases x with
  | error e => exact raises_error (hx e rfl)
  | ok a => exact hf a rfl

/-- A function behind a computation raises nothing. -/
theorem Raises.map {x : Except ε α} (hx : Raises x E) (f : α → γ) : Raises (f <$> x) E := by
  cases x with
  | error e => exact raises_error (hx e rfl)
  | ok a => exact raises_ok (f a)

/-- Errors that are all mapped to the allowed ones. -/
theorem raises_mapError {ε' : Type} {x : Except ε' α} {f : ε' → ε} (h : ∀ e, E (f e)) :
    Raises (x.mapError f) E := by
  cases x with
  | error e => exact raises_error (h e)
  | ok a => exact raises_ok a

/-- Either branch may raise. -/
theorem Raises.ite {c : Prop} [Decidable c] {x y : Except ε α} (hx : c → Raises x E)
    (hy : ¬ c → Raises y E) : Raises (if c then x else y) E := by
  by_cases hc : c
  · rw [if_pos hc]
    exact hx hc
  · rw [if_neg hc]
    exact hy hc

/-- A loop raises the errors of its rounds. -/
theorem raises_foldlM {τ : Type} {step : τ → α → Except ε τ}
    (h : ∀ t a, Raises (step t a) E) (as : List α) (t : τ) : Raises (as.foldlM step t) E := by
  induction as generalizing t with
  | nil => exact raises_pure t
  | cons a as ih =>
      rw [List.foldlM_cons]
      exact (h t a).bind fun u _ => ih u

/-- A loop of checks raises the errors of the checks. -/
theorem raises_forM {check : α → Except ε Unit} (h : ∀ a, Raises (check a) E) (as : List α) :
    Raises (as.forM check) E := by
  induction as with
  | nil => exact raises_pure ()
  | cons a as ih => exact (h a).bind fun _ _ => ih

/-- A step that succeeds raises nothing. -/
theorem raises_of_ok {x : Except ε α} (h : ∃ a, x = .ok a) : Raises x E := by
  obtain ⟨a, rfl⟩ := h
  exact raises_ok a

/-- Weaker conditions on the errors. -/
theorem Raises.imp {E' : ε → Prop} {x : Except ε α} (h : Raises x E) (hE : ∀ e, E e → E' e) :
    Raises x E' :=
  fun e he => hE e (h e he)

/-! ## Results -/

/-- Every result that `x` can return satisfies `P`. -/
def Ensures (x : Except ε α) (P : α → Prop) : Prop := ∀ a, x = .ok a → P a

variable {P : α → Prop}

/-- A failure ensures everything, -/
theorem ensures_error (e : ε) : Ensures (.error e : Except ε α) P := nofun

/-- and a result what holds of it. -/
theorem ensures_pure {a : α} (h : P a) : Ensures (pure a : Except ε α) P := by
  rintro a' ⟨⟩
  exact h

/-- **Two steps** return what the second returns, after a success of the first. -/
theorem ensures_bind {x : Except ε γ} {f : γ → Except ε α}
    (h : ∀ c, x = .ok c → Ensures (f c) P) : Ensures (x >>= f) P := by
  cases x with
  | error e => exact ensures_error e
  | ok c => exact h c rfl

/-- Either branch may be taken. -/
theorem Ensures.ite {c : Prop} [Decidable c] {x y : Except ε α} (hx : c → Ensures x P)
    (hy : ¬ c → Ensures y P) : Ensures (if c then x else y) P := by
  by_cases hc : c
  · rw [if_pos hc]
    exact hx hc
  · rw [if_neg hc]
    exact hy hc

/-! ## Ascending sequences -/

/-- Walk over a list and stop with an error at the first key that does not exceed the previous
one. The order is given as a strict relation; the loop tests `previous >= key`. -/
def checkAscending (lt : κ → κ → Prop) [DecidableRel lt] (key : α → κ) (e : ε) :
    Option κ → List α → Except ε Unit
  | _, [] => .ok ()
  | previous, a :: as => do
      failIf (previous.any (fun p => !decide (lt p (key a))) = true) e
      checkAscending lt key e (some (key a)) as

/-- A key may follow the previous one, if there is one, and starts the rest of the chain. -/
theorem isChain_toList_append_cons {lt : κ → κ → Prop} [DecidableRel lt] {previous : Option κ}
    {k : κ} {ks : List κ} :
    (previous.toList ++ k :: ks).IsChain lt ↔
      ¬ previous.any (fun p => !decide (lt p k)) = true ∧ (k :: ks).IsChain lt := by
  cases previous with
  | none => simp
  | some p => simp

/-- The loop accepts exactly the lists whose keys, after the previous key, form a chain. -/
theorem checkAscending_ok_iff {lt : κ → κ → Prop} [DecidableRel lt] {key : α → κ} {e : ε}
    {u : Unit} {as : List α} {previous : Option κ} :
    checkAscending lt key e previous as = .ok u ↔
      (previous.toList ++ as.map key).IsChain lt := by
  induction as generalizing previous with
  | nil => cases previous <;> simp [checkAscending]
  | cons a as ih =>
      simp only [checkAscending, bind_ok_iff, failIf_ok_iff, ih]
      rw [List.map_cons, isChain_toList_append_cons]
      simp

/-- From no previous key, the loop accepts exactly the strictly ascending lists. -/
theorem checkAscending_none_ok_iff {lt : κ → κ → Prop} [DecidableRel lt] [IsTrans κ lt]
    {key : α → κ} {e : ε} {u : Unit} {as : List α} :
    checkAscending lt key e none as = .ok u ↔ (as.map key).Pairwise lt := by
  rw [checkAscending_ok_iff, Option.toList_none, List.nil_append, List.isChain_iff_pairwise]

end AvmSdk.Wire
