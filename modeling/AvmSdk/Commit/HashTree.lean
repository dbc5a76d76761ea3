import Mathlib.Data.List.Basic

/-!
# Hash trees

A tree is committed to by hashing each of its labels together with the digests of the children. What
the hash is does not matter: if a message determines its label and the digests in it, then a digest
determines the whole tree, unless two messages that were hashed on the way are different and have the
same digest.

* `HashTree.digest`, `HashTree.messages`: the commitment, and what is hashed for it.
* `Clash`: two messages of two lists that the hash takes for the same.
* `HashTree.eq_or_clash`: equal digests come from equal trees, or from a clash.
-/

namespace AvmSdk.Commit

variable {ν μ δ : Type}

/-- A tree whose nodes carry labels. -/
inductive HashTree (ν : Type)
  | node (label : ν) (children : List (HashTree ν))

namespace HashTree

mutual

/-- The labels of a tree, the root first. -/
def labels : HashTree ν → List ν
  | node label children => label :: labelsAll children

/-- The labels of some trees, one after the other. -/
def labelsAll : List (HashTree ν) → List ν
  | [] => []
  | t :: ts => t.labels ++ labelsAll ts

end

section

variable (H : μ → δ) (enc : ν → List δ → μ)

mutual

/-- The digest of a tree. -/
def digest : HashTree ν → δ
  | node label children => H (enc label (digests children))

/-- The digests of some trees. -/
def digests : List (HashTree ν) → List δ
  | [] => []
  | t :: ts => t.digest :: digests ts

end

mutual

/-- What is hashed for the digest of a tree, the message of the root first. -/
def messages : HashTree ν → List μ
  | node label children => enc label (digests H enc children) :: messagesAll children

/-- What is hashed for the digests of some trees. -/
def messagesAll : List (HashTree ν) → List μ
  | [] => []
  | t :: ts => t.messages ++ messagesAll ts

end

end

end HashTree

/-! ## Clashes -/

/-- Two different messages, one of each list, have the same digest. -/
def Clash (H : μ → δ) (ms ms' : List μ) : Prop := ∃ m ∈ ms, ∃ m' ∈ ms', m ≠ m' ∧ H m = H m'

variable {H : μ → δ} {ms ms' ns ns' : List μ}

/-- A clash of some messages is one of more messages. -/
theorem Clash.mono (h : Clash H ms ms') (hms : ms ⊆ ns) (hms' : ms' ⊆ ns') : Clash H ns ns' := by
  obtain ⟨m, hm, m', hm', hne, heq⟩ := h
  exact ⟨m, hms hm, m', hms' hm', hne, heq⟩

/-- Messages with the same digest are the same, or clash. -/
theorem eq_or_clash {m m' : μ} (h : H m = H m') (hm : m ∈ ms) (hm' : m' ∈ ms') :
    m = m' ∨ Clash H ms ms' := by
  by_cases heq : m = m'
  · exact .inl heq
  · exact .inr ⟨m, hm, m', hm', heq, h⟩

/-! ## What a digest determines -/

namespace HashTree

/-- The labels of some trees, tree by tree. -/
theorem labelsAll_eq (ts : List (HashTree ν)) : labelsAll ts = ts.flatMap labels := by
  induction ts with
  | nil => rfl
  | cons t ts ih => rw [labelsAll, ih, List.flatMap_cons]

/-- The digests of some trees, tree by tree. -/
theorem digests_eq (H : μ → δ) (enc : ν → List δ → μ) (ts : List (HashTree ν)) :
    digests H enc ts = ts.map (digest H enc) := by
  induction ts with
  | nil => rfl
  | cons t ts ih => rw [digests, ih, List.map_cons]

end HashTree

/-- A message determines its label and the digests in it. -/
def Decodable (Valid : ν → Prop) (enc : ν → List δ → μ) : Prop :=
  ∀ ⦃l l' : ν⦄ ⦃ds ds' : List δ⦄, Valid l → Valid l' → enc l ds = enc l' ds' → l = l' ∧ ds = ds'

namespace HashTree

variable {enc : ν → List δ → μ} {Valid : ν → Prop}

mutual

/-- **A digest determines its tree**, or the hash has a clash. -/
theorem eq_or_clash (henc : Decodable Valid enc) : ∀ t t' : HashTree ν, (∀ l ∈ t.labels, Valid l) →
    (∀ l ∈ t'.labels, Valid l) → t.digest H enc = t'.digest H enc →
    t = t' ∨ Clash H (t.messages H enc) (t'.messages H enc)
  | node l cs, node l' cs', ht, ht', h => by
      rw [labels, List.forall_mem_cons] at ht ht'
      rw [digest, digest] at h
      rw [messages, messages]
      rcases Commit.eq_or_clash h List.mem_cons_self List.mem_cons_self with heq | hclash
      · obtain ⟨rfl, hdigests⟩ := henc ht.1 ht'.1 heq
        rcases eqAll_or_clash henc cs cs' ht.2 ht'.2 hdigests with rfl | hclash
        · exact .inl rfl
        · exact .inr (hclash.mono (List.subset_cons_self _ _) (List.subset_cons_self _ _))
      · exact .inr hclash

/-- The same for lists of trees. -/
theorem eqAll_or_clash (henc : Decodable Valid enc) : ∀ ts ts' : List (HashTree ν),
    (∀ l ∈ labelsAll ts, Valid l) → (∀ l ∈ labelsAll ts', Valid l) →
    digests H enc ts = digests H enc ts' →
    ts = ts' ∨ Clash H (messagesAll H enc ts) (messagesAll H enc ts')
  | [], [], _, _, _ => .inl rfl
  | [], _ :: _, _, _, h => by rw [digests, digests] at h; cases h
  | _ :: _, [], _, _, h => by rw [digests, digests] at h; cases h
  | t :: ts, t' :: ts', ht, ht', h => by
      rw [labelsAll, List.forall_mem_append] at ht ht'
      rw [digests, digests, List.cons.injEq] at h
      rw [messagesAll, messagesAll]
      rcases eq_or_clash henc t t' ht.1 ht'.1 h.1 with rfl | hclash
      · rcases eqAll_or_clash henc ts ts' ht.2 ht'.2 h.2 with rfl | hclash
        · exact .inl rfl
        · exact .inr (hclash.mono (List.subset_append_right _ _) (List.subset_append_right _ _))
      · exact .inr (hclash.mono (List.subset_append_left _ _) (List.subset_append_left _ _))

end

end HashTree

end AvmSdk.Commit
