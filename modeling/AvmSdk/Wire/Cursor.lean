import AvmSdk.Wire.Checked

/-!
# Readers over a cursor

A reader is a state-passing function that takes symbols off the front of a cursor or fails. The
language of a reader is the relation between the value it returns and the word it consumed;
`Reads p R` says that `p` accepts exactly the words `R` describes, whatever follows them.

* `Reads.pure`, `Reads.bind`, `Reads.lift`, `Reads.failIf`, `Reads.optional`: one rule for each
  way of building a reader, so that the language of a composite reader is the composite of the
  languages.
* `Reads.unique`: the language of a reader is unambiguous. Of two words of the language that
  begin the same input, both denote one value and are equal, so no word of the language is a
  proper prefix of another.
* `Reads.run_rest_eq_nil`: reading the whole input.
-/

namespace AvmSdk.Wire

/-- A position in a sequence of symbols. `Sound` marks the positions at which the cursor's own
arithmetic does not overflow; it is kept by moving on inside the remaining input. -/
class Cursor (σ : Type) (β : outParam Type) where
  /-- What is left to read. -/
  rest : σ → List β
  /-- Skip the next `n` symbols. -/
  advance : ℕ → σ → σ
  /-- The cursor can be moved to any position of its remaining input. -/
  Sound : σ → Prop
  rest_advance : ∀ n s, rest (advance n s) = (rest s).drop n
  advance_zero : ∀ s, advance 0 s = s
  advance_advance : ∀ m n s, advance n (advance m s) = advance (m + n) s
  sound_advance : ∀ n s, n ≤ (rest s).length → Sound s → Sound (advance n s)

variable {σ β ε α γ : Type} [Cursor σ β]

open Cursor

/-- **The language of a reader.** `p` succeeds at a sound cursor exactly when the remaining input
begins with a word `w` that `R` relates to the result, and then it has moved past `w`. -/
def Reads (p : StateT σ (Except ε) α) (R : α → List β → Prop) : Prop :=
  ∀ s, Sound s → ∀ a s', p s = .ok (a, s') ↔
    ∃ w, R a w ∧ w <+: rest s ∧ s' = advance w.length s

/-- Moving past a prefix of the remaining input keeps the cursor sound. -/
theorem sound_advance_word {s : σ} {w : List β} (hs : Sound s) (hw : w <+: rest s) :
    Sound (advance w.length s) :=
  sound_advance _ s hw.length_le hs

/-- A language may be described in any equivalent way. -/
theorem Reads.congr {p : StateT σ (Except ε) α} {R R' : α → List β → Prop} (hp : Reads p R)
    (h : ∀ a w, R a w ↔ R' a w) : Reads p R' := by
  intro s hs a s'
  rw [hp s hs a s']
  simp only [h]

/-- Returning a value consumes nothing. -/
theorem Reads.pure (a : α) :
    Reads (pure a : StateT σ (Except ε) α) (fun b (w : List β) => b = a ∧ w = []) := by
  intro s _ b s'
  constructor
  · intro h
    cases h
    exact ⟨[], ⟨rfl, rfl⟩, List.nil_prefix, (advance_zero s).symm⟩
  · rintro ⟨w, ⟨rfl, rfl⟩, -, rfl⟩
    rw [List.length_nil, advance_zero]
    rfl

/-- **Sequencing.** The word of `p >>= q` is a word of `p` followed by a word of `q`. -/
theorem Reads.bind {p : StateT σ (Except ε) α} {q : α → StateT σ (Except ε) γ}
    {R : α → List β → Prop} {S : α → γ → List β → Prop} (hp : Reads p R)
    (hq : ∀ a, Reads (q a) (S a)) :
    Reads (p >>= q) (fun c w => ∃ a u v, R a u ∧ S a c v ∧ w = u ++ v) := by
  intro s hs c s'
  have hbind : (p >>= q) s = .ok (c, s') ↔
      ∃ x : α × σ, p s = .ok x ∧ q x.1 x.2 = .ok (c, s') := bind_ok_iff
  rw [hbind]
  constructor
  · rintro ⟨⟨a, s₁⟩, hpa, hqc⟩
    obtain ⟨u, hu, hus, rfl⟩ := (hp s hs a s₁).mp hpa
    obtain ⟨v, hv, hvs, rfl⟩ := (hq a _ (sound_advance_word hs hus) c s').mp hqc
    rw [rest_advance] at hvs
    refine ⟨u ++ v, ⟨a, u, v, hu, hv, rfl⟩, ?_, ?_⟩
    · obtain ⟨t, ht⟩ := hus
      rw [← ht, List.drop_left] at hvs
      rw [← ht]
      exact (List.prefix_append_right_inj u).mpr hvs
    · rw [advance_advance, List.length_append]
  · rintro ⟨w, ⟨a, u, v, hu, hv, rfl⟩, hws, rfl⟩
    have hus : u <+: rest s := (List.prefix_append u v).trans hws
    refine ⟨(a, advance u.length s), (hp s hs a _).mpr ⟨u, hu, hus, rfl⟩, ?_⟩
    refine (hq a _ (sound_advance_word hs hus) c _).mpr ⟨v, hv, ?_, ?_⟩
    · obtain ⟨t, ht⟩ := hws
      rw [rest_advance, ← ht, List.append_assoc, List.drop_left]
      exact List.prefix_append v t
    · rw [advance_advance, List.length_append]

/-- A step that does not touch the cursor consumes nothing. -/
theorem Reads.lift (x : Except ε α) :
    Reads (liftM x : StateT σ (Except ε) α) (fun a (w : List β) => x = .ok a ∧ w = []) := by
  intro s _ a s'
  have hlift : (liftM x : StateT σ (Except ε) α) s = .ok (a, s') ↔
      ∃ b, x = .ok b ∧ (Except.ok (b, s) : Except ε (α × σ)) = .ok (a, s') := bind_ok_iff
  rw [hlift]
  constructor
  · rintro ⟨b, rfl, h⟩
    cases h
    exact ⟨[], ⟨rfl, rfl⟩, List.nil_prefix, (advance_zero s).symm⟩
  · rintro ⟨w, ⟨hx, rfl⟩, -, rfl⟩
    exact ⟨a, hx, by rw [List.length_nil, advance_zero]⟩

/-- A guard consumes nothing and holds back the inputs it rejects. -/
theorem Reads.failIf (c : Prop) [Decidable c] (e : ε) :
    Reads (liftM (failIf c e) : StateT σ (Except ε) Unit) (fun _ (w : List β) => ¬ c ∧ w = []) :=
  (Reads.lift (Wire.failIf c e)).congr fun _ _ => by simp

/-- Applying a function to the result of a reader. -/
theorem Reads.map {p : StateT σ (Except ε) α} {R : α → List β → Prop} (hp : Reads p R)
    (f : α → γ) : Reads (f <$> p) (fun c w => ∃ a, c = f a ∧ R a w) := by
  have hbind : (f <$> p) = p >>= fun a => Pure.pure (f a) := map_eq_pure_bind f p
  rw [hbind]
  refine (hp.bind fun a => Reads.pure (f a)).congr fun c w => ⟨?_, ?_⟩
  · rintro ⟨a, u, v, hu, ⟨rfl, rfl⟩, rfl⟩
    exact ⟨a, rfl, by rwa [List.append_nil]⟩
  · rintro ⟨a, rfl, h⟩
    exact ⟨a, w, [], h, ⟨rfl, rfl⟩, (List.append_nil w).symm⟩

/-- A section read under a condition. -/
def optionally (c : Prop) [Decidable c] (p : StateT σ (Except ε) α) :
    StateT σ (Except ε) (Option α) :=
  if c then some <$> p else Pure.pure none

/-- The language of a section that is present exactly when a flag is set. -/
def OptionalWord (c : Prop) (R : α → List β → Prop) (o : Option α) (w : List β) : Prop :=
  match o with
  | some a => c ∧ R a w
  | none => ¬ c ∧ w = []

/-- An optional section in terms of its encoding: it is present under the condition, valid when
present, and leaves no bytes when absent. -/
theorem optionalWord_iff {c : Prop} {P : α → Prop} {enc : α → List β} {o : Option α}
    {w : List β} :
    OptionalWord c (fun a v => P a ∧ v = enc a) o w ↔
      (o.isSome ↔ c) ∧ (∀ a ∈ o, P a) ∧ w = o.elim [] enc := by
  cases o with
  | none => simp [OptionalWord]
  | some a => simp [OptionalWord]

/-- A section read under a condition is there when the condition holds. -/
theorem Reads.optional {p : StateT σ (Except ε) α} {R : α → List β → Prop} (hp : Reads p R)
    (c : Prop) [Decidable c] : Reads (optionally c p) (OptionalWord c R) := by
  unfold optionally
  by_cases h : c
  · rw [if_pos h]
    refine (hp.map some).congr fun o w => ?_
    cases o <;> simp [OptionalWord, h]
  · rw [if_neg h]
    refine (Reads.pure none).congr fun o w => ?_
    cases o <;> simp [OptionalWord, h]

/-- **The language of a reader is unambiguous**: two words that begin one input denote the same
value and are equal. -/
theorem Reads.unique {p : StateT σ (Except ε) α} {R : α → List β → Prop} (hp : Reads p R) {s : σ}
    (hs : Sound s) {a b : α} {u v : List β} (hu : R a u) (hv : R b v) (hus : u <+: rest s)
    (hvs : v <+: rest s) : a = b ∧ u = v := by
  have h₁ := (hp s hs a _).mpr ⟨u, hu, hus, rfl⟩
  have h₂ := (hp s hs b _).mpr ⟨v, hv, hvs, rfl⟩
  rw [h₁] at h₂
  obtain ⟨hab, hadv⟩ := Prod.mk.inj (Except.ok.inj h₂)
  refine ⟨hab, ?_⟩
  have hdrop : (rest s).drop u.length = (rest s).drop v.length := by
    rw [← rest_advance, ← rest_advance, hadv]
  have hlen := congrArg List.length hdrop
  have hul := hus.length_le
  have hvl := hvs.length_le
  rw [List.length_drop, List.length_drop] at hlen
  have huv : u.length = v.length := by omega
  exact (List.prefix_of_prefix_length_le hus hvs (Nat.le_of_eq huv)).eq_of_length huv

/-- A set of words none of which begins another. -/
def PrefixFree (S : List β → Prop) : Prop := ∀ u v, S u → S v → u <+: v → u = v

/-- The words that a reader accepts from the start of an input form a prefix-free set. -/
theorem Reads.words_are_prefixFree {p : StateT σ (Except ε) α} {R : α → List β → Prop}
    (hp : Reads p R) {S : List β → Prop} (start : List β → σ)
    (hstart : ∀ w, S w → Sound (start w) ∧ rest (start w) = w) :
    PrefixFree (fun w => S w ∧ ∃ a, R a w) := by
  intro u v ⟨_, a, hu⟩ ⟨hv, b, hb⟩ huv
  obtain ⟨hsound, hrest⟩ := hstart v hv
  exact (hp.unique hsound hu hb (by rwa [hrest]) (hrest.symm ▸ List.prefix_rfl)).2

/-- Reading up to the end: the whole remaining input is one word. -/
theorem Reads.run_rest_eq_nil {p : StateT σ (Except ε) α} {R : α → List β → Prop}
    (hp : Reads p R) {s : σ} (hs : Sound s) (a : α) :
    (∃ s', p s = .ok (a, s') ∧ Sound s' ∧ rest s' = []) ↔ R a (rest s) := by
  constructor
  · rintro ⟨s', hrun, -, hend⟩
    obtain ⟨w, hw, hws, rfl⟩ := (hp s hs a s').mp hrun
    obtain ⟨t, ht⟩ := hws
    rw [rest_advance, ← ht, List.drop_left] at hend
    rwa [← ht, hend, List.append_nil]
  · intro h
    refine ⟨_, (hp s hs a _).mpr ⟨_, h, List.prefix_rfl, rfl⟩,
      sound_advance_word hs List.prefix_rfl, ?_⟩
    rw [rest_advance, List.drop_length]

end AvmSdk.Wire
