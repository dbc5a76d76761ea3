import AvmSdk.Wire.LittleEndian

/-!
# Self-delimiting encodings

An encoding is self-delimiting on a set of values when its end can be found from its front: two
encodings that begin one word encode the same value and stop at the same place.

* `SelfDelimiting P enc`, with `SelfDelimiting.inj` and `SelfDelimiting.not_proper_prefix_of`.
* `SelfDelimiting.flatMap`, `SelfDelimiting.counted`, `lengthPrefixed_append_inj`: lists of a
  known length, lists after their length, byte strings after their length.
-/

namespace AvmSdk.Wire

variable {α β : Type}

/-- An encoding that determines its own end on the values satisfying `P`. -/
def SelfDelimiting (P : α → Prop) (enc : α → List β) : Prop :=
  ∀ a b s t, P a → P b → enc a ++ s = enc b ++ t → a = b ∧ s = t

/-- A self-delimiting encoding is injective. -/
theorem SelfDelimiting.inj {P : α → Prop} {enc : α → List β} (h : SelfDelimiting P enc) {a b : α}
    (ha : P a) (hb : P b) (hab : enc a = enc b) : a = b :=
  (h a b [] [] ha hb (by rw [hab])).1

/-- No encoding of a self-delimiting encoding is a proper prefix of another. -/
theorem SelfDelimiting.not_proper_prefix_of {P : α → Prop} {enc : α → List β}
    (h : SelfDelimiting P enc) {a b : α} (ha : P a) (hb : P b) (hab : enc a <+: enc b) :
    enc a = enc b := by
  obtain ⟨t, ht⟩ := hab
  rw [(h a b t [] ha hb (by rw [ht, List.append_nil])).1]

/-- Two appends with first parts of one length agree exactly when both parts do. -/
theorem append_inj_of_length {u v s t : List β} (hlen : u.length = v.length)
    (h : u ++ s = v ++ t) : u = v ∧ s = t :=
  List.append_inj h hlen

/-! ## Sequences -/

/-- Sequences of one length are told apart, and their end found, record by record. -/
theorem SelfDelimiting.flatMap {P : α → Prop} {enc : α → List β} (h : SelfDelimiting P enc) :
    ∀ (as bs : List α) (s t : List β), as.length = bs.length → (∀ a ∈ as, P a) →
      (∀ b ∈ bs, P b) → as.flatMap enc ++ s = bs.flatMap enc ++ t → as = bs ∧ s = t
  | [], [], s, t, _, _, _, hst => ⟨rfl, by simpa using hst⟩
  | a :: as, b :: bs, s, t, hlen, ha, hb, hst => by
      rw [List.flatMap_cons, List.flatMap_cons, List.append_assoc, List.append_assoc] at hst
      obtain ⟨rfl, htl⟩ := h a b _ _ (ha a List.mem_cons_self) (hb b List.mem_cons_self) hst
      obtain ⟨rfl, rfl⟩ := SelfDelimiting.flatMap h as bs s t (by simpa using hlen)
        (fun x hx => ha x (List.mem_cons_of_mem _ hx))
        (fun x hx => hb x (List.mem_cons_of_mem _ hx)) htl
      exact ⟨rfl, rfl⟩

/-- A part that may be absent, where both sides know whether it is. -/
theorem SelfDelimiting.optional {P : α → Prop} {enc : α → List β} (h : SelfDelimiting P enc)
    {o o' : Option α} {s t : List β} (ho : ∀ a ∈ o, P a) (ho' : ∀ a ∈ o', P a)
    (hsome : o.isSome = o'.isSome) (hst : o.elim [] enc ++ s = o'.elim [] enc ++ t) :
    o = o' ∧ s = t := by
  cases o with
  | none =>
      cases o' with
      | none => exact ⟨rfl, hst⟩
      | some b => cases hsome
  | some a =>
      cases o' with
      | none => cases hsome
      | some b =>
          obtain ⟨rfl, htail⟩ := h a b s t (ho a rfl) (ho' b rfl) hst
          exact ⟨rfl, htail⟩

/-- Two byte strings that begin with words of one width agree on the word and on the rest. -/
theorem leBytes_append_inj {n x y : ℕ} {s t : Bytes} (hx : x < 256 ^ n) (hy : y < 256 ^ n)
    (h : leBytes n x ++ s = leBytes n y ++ t) : x = y ∧ s = t := by
  obtain ⟨hxy, hst⟩ := append_inj_of_length (by simp) h
  exact ⟨leBytes_inj hx hy hxy, hst⟩

/-- Two byte strings that begin with words agree on the word and on the rest. -/
theorem toLe_append_inj {w : ℕ} (hw : 8 ∣ w) {x y : BitVec w} {s t : Bytes}
    (h : toLe x ++ s = toLe y ++ t) : x = y ∧ s = t := by
  obtain ⟨hxy, hst⟩ := append_inj_of_length (by simp) h
  exact ⟨toLe_inj hw hxy, hst⟩

/-- A list after its length, written in `n` bytes. -/
def counted (n : ℕ) (enc : α → Bytes) (as : List α) : Bytes :=
  leBytes n as.length ++ as.flatMap enc

/-- A counted list determines its end. -/
theorem SelfDelimiting.counted {P : α → Prop} {enc : α → Bytes} (h : SelfDelimiting P enc)
    (n : ℕ) : SelfDelimiting (fun as => as.length < 256 ^ n ∧ ∀ a ∈ as, P a)
      (Wire.counted n enc) := by
  intro as bs s t ⟨has, ha⟩ ⟨hbs, hb⟩ hst
  rw [Wire.counted, Wire.counted, List.append_assoc, List.append_assoc] at hst
  obtain ⟨hlen, hrest⟩ := leBytes_append_inj has hbs hst
  exact h.flatMap as bs s t hlen ha hb hrest

/-- A byte string after its length, written in `n` bytes. -/
def lengthPrefixed (n : ℕ) (v : Bytes) : Bytes := leBytes n v.length ++ v

/-- The length of a field behind its length. -/
@[simp] theorem length_lengthPrefixed (n : ℕ) (v : Bytes) :
    (lengthPrefixed n v).length = n + v.length := by
  rw [lengthPrefixed, List.length_append, length_leBytes]

/-- Words of one width determine their end. -/
theorem selfDelimiting_toLe {w : ℕ} (hw : 8 ∣ w) :
    SelfDelimiting (fun _ => True) (toLe : BitVec w → Bytes) :=
  fun _ _ _ _ _ _ h => toLe_append_inj hw h

/-- A length-prefixed byte string determines its end. -/
theorem lengthPrefixed_append_inj {n : ℕ} {u v s t : Bytes} (hu : u.length < 256 ^ n)
    (hv : v.length < 256 ^ n) (h : lengthPrefixed n u ++ s = lengthPrefixed n v ++ t) :
    u = v ∧ s = t := by
  rw [lengthPrefixed, lengthPrefixed, List.append_assoc, List.append_assoc] at h
  obtain ⟨hlen, hrest⟩ := leBytes_append_inj hu hv h
  exact append_inj_of_length hlen hrest

/-- Length-prefixed byte strings determine their end. -/
theorem selfDelimiting_lengthPrefixed (n : ℕ) :
    SelfDelimiting (fun v : Bytes => v.length < 256 ^ n) (lengthPrefixed n) :=
  fun _ _ _ _ hu hv h => lengthPrefixed_append_inj hu hv h

end AvmSdk.Wire
