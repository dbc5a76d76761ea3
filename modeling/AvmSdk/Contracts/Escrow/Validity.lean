import AvmSdk.Contracts.Escrow.State
import Mathlib.Algebra.BigOperators.Pi
import Mathlib.Algebra.Order.BigOperators.Group.Finset

/-!
# Valid states of a bounty escrow

What `State::validate` accepts, in exact numbers.

* `State.Valid`: the invariant. `State.validate_ok_iff`: validation accepts exactly the valid states.
* `State.paidSum`, `State.refundedSum`, `State.refundableSum`: the sums over the milestones.
* `State.decode_ok_iff`: the decoder accepts exactly the encodings of valid states.
-/

namespace AvmSdk.Escrow

open Wire Sdk Contracts

namespace State

/-- The sum of the amounts of the milestones with a kind of phase. -/
def sumWhere (s : State) (p : U8 → Prop) [DecidablePred p] : ℕ :=
  ∑ i, if p (s.phases i) then (s.config.amounts i).toNat else 0

/-- What was paid. -/
def paidSum (s : State) : ℕ := s.sumWhere (· = phasePaid)

/-- What was refunded. -/
def refundedSum (s : State) : ℕ := s.sumWhere (· = phaseRefunded)

/-- What goes back after the deadline. -/
def refundableSum (s : State) : ℕ := s.sumWhere Refundable

/-- The rules of a milestone. -/
structure MilestoneOk (s : State) (i : Fin maxMilestones) : Prop where
  phase_le : s.phases i ≤ phaseRefunded
  hash_eq_zero : s.phases i = phaseOpen → s.deliveryHashes i = zeros 32
  hash_ne_zero : s.phases i = phaseSubmitted ∨ s.phases i = phaseApproved ∨ s.phases i = phasePaid →
    s.deliveryHashes i ≠ zeros 32

/-- The rules of the pending transfer. -/
structure PendingOk (s : State) : Prop where
  kind_cases : s.pending.kind = 0 ∨ s.pending.kind = 1 ∨ s.pending.kind = 2
  idle : s.pending.kind = 0 → s.pending = Pending.default
  payment : s.pending.kind = 1 → s.pending.index.toNat < s.config.count.toNat ∧
    s.phases (milestone s.pending.index) = phaseApproved ∧
    s.pending.amount = s.config.amounts (milestone s.pending.index)
  refund : s.pending.kind = 2 → s.pending.index = 255 ∧ s.pending.amount ≠ 0 ∧
    s.pending.amount.toNat = s.refundableSum

/-- The states that pass the check. -/
structure Valid (s : State) : Prop where
  config : s.config.Valid
  attempts_le : s.attempts.toNat ≤ maxAttempts
  receipts_length : s.receipts.length + (if s.pending.kind ≠ 0 then 1 else 0) = s.attempts.toNat
  receipts_ne_zero : ∀ h ∈ s.receipts, h ≠ zeros 32
  receipts_nodup : s.receipts.Nodup
  funded_cases : s.funded = 0 ∨ s.funded = s.config.total
  pristine : s.funded = 0 → s.attempts = 0 ∧ ∀ i, s.phases i = phaseOpen
  idle : ∀ i, ¬ s.config.Active i → s.phases i = phaseOpen ∧ s.deliveryHashes i = zeros 32
  milestones : ∀ i, s.config.Active i → s.MilestoneOk i
  paid_eq : s.paid.toNat = s.paidSum
  refunded_eq : s.refunded.toNat = s.refundedSum
  covered : s.paid.toNat + s.refunded.toNat ≤ s.funded.toNat
  pending : s.PendingOk
  attempt_eq : s.pending.kind ≠ 0 → s.pending.attempt = s.attempts ∧ s.funded ≠ 0

variable {s : State} {i : Fin maxMilestones}

/-! ## Sums -/

/-- Three kinds of phases and the approved ones make up the total. -/
theorem sumWhere_total (hc : s.config.Valid) (hphases : ∀ i, s.phases i ≤ phaseRefunded) :
    s.paidSum + s.refundedSum + (s.refundableSum + s.sumWhere (· = phaseApproved)) =
      s.config.total.toNat := by
  unfold paidSum refundedSum refundableSum sumWhere
  rw [hc.total_eq, ← Finset.sum_add_distrib, ← Finset.sum_add_distrib, ← Finset.sum_add_distrib]
  apply Finset.sum_congr rfl
  intro i _
  have hle := hphases i
  have hcases : s.phases i = phaseOpen ∨ s.phases i = phaseSubmitted ∨ s.phases i = phaseApproved ∨
      s.phases i = phasePaid ∨ s.phases i = phaseRefunded := by
    revert hle
    generalize s.phases i = p
    revert p
    decide
  rcases hcases with h | h | h | h | h <;> rw [h] <;> simp [Refundable, phaseOpen, phaseSubmitted,
    phaseApproved, phasePaid, phaseRefunded]

/-- The refundable sum in the words of the code. -/
theorem refundable_ok_iff (hidle : ∀ i, ¬ s.config.Active i → s.config.amounts i = 0) {v : U128} :
    s.refundable = .ok v ↔ v.toNat = s.refundableSum := by
  have hkept : (((firstIndices maxMilestones s.config.count.toNat).filter
      fun i => Refundable (s.phases i)).map fun i => (s.config.amounts i).toNat).sum =
        ((firstIndices maxMilestones s.config.count.toNat).map fun i =>
          if Refundable (s.phases i) then (s.config.amounts i).toNat else 0).sum := by
    rw [List.sum_map_ite]
    simp
  have hzero (i : Fin maxMilestones) (hi : s.config.count.toNat ≤ i.val) :
      (if Refundable (s.phases i) then (s.config.amounts i).toNat else 0) = 0 := by
    rw [hidle i (Nat.not_lt.mpr hi)]
    exact ite_self 0
  unfold refundable refundableSum sumWhere
  rw [foldlM_add_iff, hkept, sum_firstIndices, sum_ite_of_zero hzero]

/-- The refundable sum is a word. -/
theorem exists_refundable (hc : s.config.Valid) :
    ∃ v, s.refundable = .ok v ∧ v.toNat = s.refundableSum := by
  have hle : s.refundableSum ≤ s.config.total.toNat := by
    rw [hc.total_eq]
    unfold refundableSum sumWhere
    apply Finset.sum_le_sum
    intro i _
    split_ifs
    · exact le_rfl
    · exact Nat.zero_le _
  obtain ⟨v, hv⟩ := exists_word_of_le hle
  exact ⟨v, (refundable_ok_iff hc.idle).mpr hv, hv⟩

/-- Adding under a condition. -/
theorem addIf_ok_iff {c : Prop} [Decidable c] {v amount u : U128} :
    addIf c v amount = .ok u ↔ u.toNat = v.toNat + if c then amount.toNat else 0 := by
  unfold addIf
  split_ifs with h
  · rw [okOr_ok_iff, wordCheckedAdd_eq_some]
    exact eq_comm
  · rw [Except.ok.injEq, Nat.add_zero, ← BitVec.toNat_inj]
    exact eq_comm

/-- What the checks of a milestone leave. -/
theorem not_malformed_iff : ¬ (phaseRefunded < s.phases i ∨
    s.phases i = phaseOpen ∧ s.deliveryHashes i ≠ zeros 32 ∨
    (s.phases i = phaseSubmitted ∨ s.phases i = phaseApproved ∨ s.phases i = phasePaid) ∧
      s.deliveryHashes i = zeros 32) ↔ s.MilestoneOk i := by
  push Not
  constructor
  · rintro ⟨hle, hopen, hsome⟩
    exact ⟨BitVec.not_lt.mp hle, hopen, hsome⟩
  · intro h
    exact ⟨BitVec.not_lt.mpr h.phase_le, h.hash_eq_zero, h.hash_ne_zero⟩

/-- What a milestone counts for. -/
def counted (s : State) (i : Fin maxMilestones) : ℕ × ℕ :=
  (if s.phases i = phasePaid then (s.config.amounts i).toNat else 0,
    if s.phases i = phaseRefunded then (s.config.amounts i).toNat else 0)

/-- What the check of a milestone accepts, and what it counts. -/
theorem checkMilestone_ok_iff {t u : U128 × U128} :
    s.checkMilestone t i = .ok u ↔
      s.MilestoneOk i ∧ (u.1.toNat, u.2.toNat) = (t.1.toNat, t.2.toNat) + s.counted i := by
  simp only [checkMilestone, bind_ok_iff, failIf_ok_iff, exists_const, not_malformed_iff,
    addIf_ok_iff, pure_ok_iff]
  refine and_congr_right fun _ => ?_
  unfold counted
  rw [Prod.mk_add_mk, Prod.mk.injEq]
  constructor
  · rintro ⟨a, ha, b, hb, rfl⟩
    exact ⟨ha, hb⟩
  · rintro ⟨ha, hb⟩
    exact ⟨u.1, ha, u.2, hb, rfl⟩

/-- **The loop over the milestones** checks each, and leaves the sums. -/
theorem checkMilestones_ok_iff
    (hidle : ∀ i, ¬ s.config.Active i → s.phases i = phaseOpen) {a b : U128} :
    (firstIndices maxMilestones s.config.count.toNat).foldlM s.checkMilestone
        ((0 : U128), (0 : U128)) = .ok (a, b) ↔
      (∀ i, s.config.Active i → s.MilestoneOk i) ∧ a.toNat = s.paidSum ∧
        b.toNat = s.refundedSum := by
  have htallies : Tallies fun t : U128 × U128 => (t.1.toNat, t.2.toNat) :=
    (tallies_toNat 128).prod (tallies_toNat 128)
  have hsum : ((firstIndices maxMilestones s.config.count.toNat).map s.counted).sum =
      (s.paidSum, s.refundedSum) := by
    have hzero (i : Fin maxMilestones) (hi : s.config.count.toNat ≤ i.val) : s.counted i = 0 := by
      unfold counted
      rw [hidle i (Nat.not_lt.mpr hi)]
      rfl
    rw [sum_firstIndices, sum_ite_of_zero hzero]
    simp only [Prod.ext_iff, Prod.fst_sum, Prod.snd_sum]
    exact ⟨rfl, rfl⟩
  have hstep (t : U128 × U128) (i : Fin maxMilestones) (u : U128 × U128) :
      s.checkMilestone t i = .ok u ↔
        s.MilestoneOk i ∧ (u.1.toNat, u.2.toNat) = (t.1.toNat, t.2.toNat) + s.counted i :=
    checkMilestone_ok_iff
  have hfold := foldlM_total_zero_iff htallies hstep (t := (0, 0)) rfl
    (firstIndices maxMilestones s.config.count.toNat) (u := (a, b))
  rw [hsum] at hfold
  rw [hfold]
  simp only [mem_firstIndices, Prod.mk.injEq]

/-! ## Validation -/

/-- An idle escrow has a proper transfer, -/
theorem pendingOk_of_idle (h : s.pending = Pending.default) : s.PendingOk := by
  have hkind : s.pending.kind = 0 := by rw [h]; rfl
  refine ⟨.inl hkind, fun _ => h, fun hone => ?_, fun htwo => ?_⟩
  · exact absurd (hkind.symm.trans hone) (by decide)
  · exact absurd (hkind.symm.trans htwo) (by decide)

/-- so has one that pays an approved milestone, -/
theorem pendingOk_of_payment (hkind : s.pending.kind = 1)
    (h : s.pending.index.toNat < s.config.count.toNat ∧
      s.phases (milestone s.pending.index) = phaseApproved ∧
      s.pending.amount = s.config.amounts (milestone s.pending.index)) : s.PendingOk := by
  refine ⟨.inr (.inl hkind), fun hno => ?_, fun _ => h, fun htwo => ?_⟩
  · exact absurd (hkind.symm.trans hno) (by decide)
  · exact absurd (hkind.symm.trans htwo) (by decide)

/-- and so has one that refunds what is left. -/
theorem pendingOk_of_refund (hkind : s.pending.kind = 2)
    (h : s.pending.index = 255 ∧ s.pending.amount ≠ 0 ∧
      s.pending.amount.toNat = s.refundableSum) : s.PendingOk := by
  refine ⟨.inr (.inr hkind), fun hno => ?_, fun hone => ?_, fun _ => h⟩
  · exact absurd (hkind.symm.trans hno) (by decide)
  · exact absurd (hkind.symm.trans hone) (by decide)

/-- These are all that the check accepts. -/
theorem checkPending_ok_iff (hc : s.config.Valid) {u : Unit} :
    s.checkPending = .ok u ↔ s.PendingOk := by
  unfold checkPending
  dsimp only
  by_cases hzero : s.pending.kind = 0
  · rw [if_pos hzero, failIf_ok_iff, not_not]
    exact ⟨pendingOk_of_idle, fun h => h.idle hzero⟩
  · rw [if_neg hzero]
    by_cases hone : s.pending.kind = 1
    · rw [if_pos hone, failIf_ok_iff]
      push Not
      exact ⟨pendingOk_of_payment hone, fun h => h.payment hone⟩
    · rw [if_neg hone]
      by_cases htwo : s.pending.kind = 2
      · rw [if_pos htwo]
        simp only [bind_ok_iff, failIf_ok_iff, exists_const, refundable_ok_iff hc.idle, not_not]
        push Not
        constructor
        · rintro ⟨⟨hindex, hsome⟩, v, hv, hamount⟩
          apply pendingOk_of_refund htwo
          rw [hamount] at hsome ⊢
          exact ⟨hindex, hsome, hv⟩
        · intro h
          obtain ⟨hindex, hsome, hamount⟩ := h.refund htwo
          exact ⟨⟨hindex, hsome⟩, _, hamount, rfl⟩
      · rw [if_neg htwo]
        constructor
        · intro h
          cases h
        · intro h
          rcases h.kind_cases with hkind | hkind | hkind
          · exact absurd hkind hzero
          · exact absurd hkind hone
          · exact absurd hkind htwo

/-- No receipt is zero or stands twice. -/
theorem receipts_ok_iff {hashes : List Bytes32} :
    ¬ (∃ p ∈ hashes.zipIdx, p.1 = zeros 32 ∨ p.1 ∈ hashes.take p.2) ↔
      (∀ h ∈ hashes, h ≠ zeros 32) ∧ hashes.Nodup := by
  rw [List.nodup_iff_getElem?_ne_getElem?]
  push Not
  constructor
  · intro hfresh
    constructor
    · intro h hmem
      obtain ⟨j, hj⟩ := List.mem_iff_getElem?.mp hmem
      exact (hfresh (h, j) (List.mk_mem_zipIdx_iff_getElem?.mpr hj)).1
    · intro i j hij hj heq
      have hget : hashes[j]? = some hashes[j] := List.getElem?_eq_getElem hj
      apply (hfresh (hashes[j], j) (List.mk_mem_zipIdx_iff_getElem?.mpr hget)).2
      rw [List.mem_iff_getElem?]
      refine ⟨i, ?_⟩
      rw [List.getElem?_take_of_lt hij, heq, hget]
  · rintro ⟨hsome, hnodup⟩ ⟨h, j⟩ hmem
    have hget := List.mk_mem_zipIdx_iff_getElem?.mp hmem
    obtain ⟨hj, -⟩ := List.getElem?_eq_some_iff.mp hget
    refine ⟨hsome h (List.mem_of_getElem? hget), fun htake => ?_⟩
    obtain ⟨i, hi⟩ := List.mem_iff_getElem?.mp htake
    have hij : i < j := by
      by_contra hno
      rw [List.getElem?_eq_none (by rw [List.length_take]; omega)] at hi
      cases hi
    rw [List.getElem?_take_of_lt hij] at hi
    exact hnodup i j hij hj (hi.trans hget.symm)

/-- **Validation of a state.** -/
theorem validate_ok_iff (hc : s.config.Valid) {u : Unit} : s.validate = .ok u ↔ s.Valid := by
  simp only [validate, bind_ok_iff, failIf_ok_iff, exists_const, checkPending_ok_iff hc, not_or,
    receipts_ok_iff, not_not, covered_iff]
  push Not
  constructor
  · rintro ⟨⟨hattempts, hlength, ⟨hsome, hnodup⟩, hfunded, hpristine, hphases, hhashes⟩, ⟨a, b⟩,
      hsums, ⟨rfl, rfl, hcovered⟩, hpending, hattempt⟩
    have hidle (i : Fin maxMilestones) (hi : ¬ s.config.Active i) : s.phases i = phaseOpen :=
      hphases i (Nat.not_lt.mp hi)
    obtain ⟨hmilestones, hpaid, hrefunded⟩ := (checkMilestones_ok_iff hidle).mp hsums
    exact ⟨hc, hattempts, hlength, hsome, hnodup, Decidable.or_iff_not_imp_left.mpr hfunded,
      hpristine, fun i hi => ⟨hidle i hi, hhashes i (Nat.not_lt.mp hi)⟩, hmilestones, hpaid,
      hrefunded, hcovered, hpending, hattempt⟩
  · intro h
    have hsums : (firstIndices maxMilestones s.config.count.toNat).foldlM s.checkMilestone
        ((0 : U128), (0 : U128)) = .ok (s.paid, s.refunded) :=
      (checkMilestones_ok_iff fun i hi => (h.idle i hi).1).mpr
        ⟨h.milestones, h.paid_eq, h.refunded_eq⟩
    exact ⟨⟨h.attempts_le, h.receipts_length, ⟨h.receipts_ne_zero, h.receipts_nodup⟩,
      Decidable.or_iff_not_imp_left.mp h.funded_cases, h.pristine,
      fun i hi => (h.idle i (Nat.not_lt.mpr hi)).1, fun i hi => (h.idle i (Nat.not_lt.mpr hi)).2⟩,
      (s.paid, s.refunded), hsums, ⟨rfl, rfl, h.covered⟩, h.pending, h.attempt_eq⟩

/-! ## Encoding -/

/-- The lengths of the fields of a state, -/
theorem lengths_encode (s : State) :
    [s.config.encode, toLe s.funded, toLe s.paid, toLe s.refunded, toLe s.attempts,
      [s.pending.kind], [s.pending.index], (zeros 6).val, toLe s.pending.amount,
      toLe s.pending.attempt, (List.ofFn fun i => [s.phases i]).flatten,
      (List.ofFn fun i => (s.deliveryHashes i).val).flatten,
      toLe (BitVec.ofNat 64 s.receipts.length),
      (List.ofFn fun i => (receiptSlot s.receipts i).val).flatten].map List.length =
      [360, 16, 16, 16, 8, 1, 1, 6, 16, 8, 8, 256, 8, 2048] := by
  have hphases : (List.ofFn fun i => [s.phases i]).flatten.length = 8 * 1 :=
    length_flatten_rows fun i => List.length_singleton
  have hhashes : (List.ofFn fun i => (s.deliveryHashes i).val).flatten.length = 8 * 32 :=
    length_flatten_rows fun i => length_bytesN _
  have hreceipts : (List.ofFn fun i => (receiptSlot s.receipts i).val).flatten.length = 64 * 32 :=
    length_flatten_rows fun i => length_bytesN _
  simp only [List.map_cons, List.map_nil, hphases, hhashes, hreceipts, length_toLe, length_bytesN,
    List.length_singleton, Config.length_encode]

/-- and that of them all. -/
@[simp] theorem length_encode (s : State) : s.encode.length = stateBytes :=
  length_flatten_of_lengths (lengths_encode s)

/-- A word is the encoding of a state exactly when each part stands at its offset. -/
theorem encode_eq_iff {b : Bytes} (hlen : b.length = stateBytes) :
    s.encode = b ↔
      s.config.encode = b.extract 0 360 ∧ toLe s.funded = b.extract 360 376 ∧
        toLe s.paid = b.extract 376 392 ∧ toLe s.refunded = b.extract 392 408 ∧
        toLe s.attempts = b.extract 408 416 ∧ s.pending.kind = b.getD 416 0 ∧
        s.pending.index = b.getD 417 0 ∧ (zeros 6).val = b.extract 418 424 ∧
        toLe s.pending.amount = b.extract 424 440 ∧ toLe s.pending.attempt = b.extract 440 448 ∧
        (∀ i : Fin maxMilestones, [s.phases i] = b.extract (448 + i * 1) (448 + i * 1 + 1)) ∧
        (∀ i : Fin maxMilestones,
          (s.deliveryHashes i).val = b.extract (456 + i * 32) (456 + i * 32 + 32)) ∧
        toLe (BitVec.ofNat 64 s.receipts.length) = b.extract 712 720 ∧
        ∀ i : Fin maxAttempts,
          (receiptSlot s.receipts i).val = b.extract (720 + i * 32) (720 + i * 32 + 32) := by
  have hphases : (List.ofFn fun i => [s.phases i]).flatten = b.extract 448 456 ↔
      ∀ i : Fin maxMilestones, [s.phases i] = b.extract (448 + i * 1) (448 + i * 1 + 1) :=
    flatten_rows_iff (fun i => List.length_singleton) (by rw [hlen]; decide)
  have hhashes : (List.ofFn fun i => (s.deliveryHashes i).val).flatten = b.extract 456 712 ↔
      ∀ i : Fin maxMilestones,
        (s.deliveryHashes i).val = b.extract (456 + i * 32) (456 + i * 32 + 32) :=
    flatten_rows_iff (fun i => length_bytesN _) (by rw [hlen]; decide)
  have hreceipts : (List.ofFn fun i => (receiptSlot s.receipts i).val).flatten =
      b.extract 720 2768 ↔ ∀ i : Fin maxAttempts,
        (receiptSlot s.receipts i).val = b.extract (720 + i * 32) (720 + i * 32 + 32) :=
    flatten_rows_iff (fun i => length_bytesN _) (by rw [hlen]; decide)
  have hkind : b.extract 416 417 = [b.getD 416 0] := extract_one (by rw [hlen]; decide)
  have hindex : b.extract 417 418 = [b.getD 417 0] := extract_one (by rw [hlen]; decide)
  rw [encode, flatten_eq_iff (lengths_encode s) hlen]
  simp only [splitParts, List.cons.injEq, and_true, Nat.reduceAdd, hkind, hindex, hphases, hhashes,
    hreceipts]

/-- The phases that are read are those that stand in the bytes. -/
theorem phases_eq_iff {b : Bytes} (hlen : b.length = stateBytes) {phases : Fin maxMilestones → U8} :
    (∀ i : Fin maxMilestones, [phases i] = b.extract (448 + i * 1) (448 + i * 1 + 1)) ↔
      phases = fun i => (b.extract 448 456).getD i.val 0 := by
  rw [funext_iff]
  refine forall_congr' fun i => ?_
  have hi : i.val < 8 := i.isLt
  rw [getD_extract (by omega), Nat.mul_one,
    extract_one (d := 0) (by rw [hlen]; unfold stateBytes; omega), List.singleton_inj]

section

variable {b : Bytes} {slot : Fin maxAttempts → Bytes32} {count : U64}

/-- The slots in use are kept, and the others are zero. -/
theorem decodeReceipts_ok_iff [Target]
    (hslot : ∀ (i : Fin maxAttempts) (h : Bytes32),
      arrayAt errArgs 32 b (720 + i.val * 32) = .ok h ↔ h = slot i)
    (as : List (Fin maxAttempts)) {acc r : List Bytes32} :
    as.foldlM (decodeReceipt b count) acc = .ok r ↔
      (∀ i ∈ as, ¬ i.val < count.toNat → slot i = zeros 32) ∧
        r = acc ++ (as.filter fun i => i.val < count.toNat).map slot := by
  induction as generalizing acc with
  | nil =>
      simp only [List.foldlM_nil, pure_ok_iff, List.not_mem_nil, false_implies, implies_true,
        true_and, List.filter_nil, List.map_nil, List.append_nil]
      exact eq_comm
  | cons i as ih =>
      rw [List.foldlM_cons, bind_ok_iff, List.forall_mem_cons]
      simp only [decodeReceipt, bind_ok_iff, hslot, exists_eq_left]
      by_cases hi : i.val < count.toNat
      · simp only [hi, if_true, pure_ok_iff, exists_eq_left', ih, not_true_eq_false, false_implies,
          true_and, decide_true, List.filter_cons_of_pos, List.map_cons, List.append_assoc,
          List.singleton_append]
      · simp only [hi, if_false, bind_ok_iff, failIf_ok_iff, not_not, exists_const, pure_ok_iff,
          not_false_eq_true, true_implies, decide_false, Bool.false_eq_true,
          List.filter_cons_of_neg, and_assoc, exists_and_left, exists_eq_left', ih]

/-- The list of receipts stands in its slots. -/
theorem receiptSlot_iff {r : List Bytes32} {k : ℕ} (hk : k ≤ maxAttempts) :
    (∀ i ∈ List.finRange maxAttempts, ¬ i.val < k → slot i = zeros 32) ∧
        r = (firstIndices maxAttempts k).map slot ↔
      r.length = k ∧ ∀ i, receiptSlot r i = slot i := by
  have hget (i : ℕ) (hi : i < maxAttempts) :
      ((List.finRange maxAttempts).map slot)[i]? = some (slot ⟨i, hi⟩) := by
    rw [List.getElem?_map, List.getElem?_eq_getElem (by rwa [List.length_finRange]),
      List.getElem_finRange]
    rfl
  rw [firstIndices_eq_take, List.map_take]
  unfold receiptSlot
  constructor
  · rintro ⟨hzero, rfl⟩
    refine ⟨by rw [List.length_take, List.length_map, List.length_finRange]; omega, fun i => ?_⟩
    rw [List.getD_eq_getElem?_getD]
    by_cases hi : i.val < k
    · rw [List.getElem?_take_of_lt hi, hget i.val i.isLt, Option.getD_some]
    · rw [List.getElem?_eq_none (by rw [List.length_take]; omega), Option.getD_none,
        hzero i (List.mem_finRange i) hi]
  · rintro ⟨hlength, hslots⟩
    constructor
    · intro i _ hi
      rw [← hslots i, List.getD_eq_getElem?_getD, List.getElem?_eq_none (by omega),
        Option.getD_none]
    · apply List.ext_getElem?
      intro i
      by_cases hi : i < k
      · have hsome : i < maxAttempts := by omega
        rw [List.getElem?_take_of_lt hi, hget i hsome, ← hslots ⟨i, hsome⟩,
          List.getD_eq_getElem?_getD, List.getElem?_eq_getElem (by omega), Option.getD_some]
      · rw [List.getElem?_eq_none (by omega),
          List.getElem?_eq_none (by rw [List.length_take]; omega)]

/-- **Decoding a state.** -/
theorem decode_ok_iff [Target] : decode b = .ok s ↔ s.encode = b ∧ s.Valid := by
  by_cases hlen : b.length = stateBytes
  · have hsmall : b.length < 2 ^ 32 := by rw [hlen]; decide
    have hword (w o : ℕ) (hw : 8 ∣ w) (ho : o + w / 8 ≤ stateBytes) {x : BitVec w} :
        wordAt errArgs w b o = .ok x ↔ toLe x = b.extract o (o + w / 8) :=
      wordAt_ok_iff hsmall hw (by rw [hlen]; exact ho)
    have hhash (i : Fin maxMilestones) {h : Bytes32} : arrayAt errArgs 32 b (456 + i.val * 32) = .ok h ↔
        h.val = b.extract (456 + i.val * 32) (456 + i.val * 32 + 32) := by
      have hi : i.val < 8 := i.isLt
      exact arrayAt_ok_iff hsmall (by rw [hlen]; unfold stateBytes; omega)
    have hphases {p : BytesN 8} : arrayAt errArgs 8 b 448 = .ok p ↔ p.val = b.extract 448 456 :=
      arrayAt_ok_iff hsmall (by rw [hlen]; decide)
    have hroom (i : Fin maxAttempts) : 720 + i.val * 32 + 32 ≤ b.length := by
      have hi : i.val < 64 := i.isLt
      rw [hlen]
      unfold stateBytes
      omega
    have hexists (i : Fin maxAttempts) : ∃ h : Bytes32,
        h.val = b.extract (720 + i.val * 32) (720 + i.val * 32 + 32) :=
      ⟨⟨_, by rw [length_extract_of_le (hroom i)]; omega⟩, rfl⟩
    choose slot hslots using hexists
    have hslot (i : Fin maxAttempts) (h : Bytes32) :
        arrayAt errArgs 32 b (720 + i.val * 32) = .ok h ↔ h = slot i := by
      rw [arrayAt_ok_iff hsmall (hroom i), ← hslots i, Subtype.ext_iff]
    rw [encode_eq_iff hlen, phases_eq_iff hlen]
    simp only [decode, hlen, ne_eq, not_true_eq_false, false_or, bind_ok_iff, failIf_ok_iff,
      mapError_ok_iff, pure_ok_iff, exists_const, not_not, tabulateM_ok_iff, Config.decode_ok_iff,
      hhash, hphases, decodeReceipts_ok_iff hslot]
    constructor
    · rintro ⟨hpad, count, hcount, hle, hashes, hhashes, receipts, hreceipts, config,
        ⟨hconfig, hvalid⟩, funded, hfunded, paid, hpaid, refunded, hrefunded, attempts, hattempts,
        amount, hamount, attempt, hattempt, phases, hphases, u, hvalidate, rfl⟩
      obtain ⟨hlength, hreceipts⟩ := (receiptSlot_iff (Nat.not_lt.mp hle)).mp hreceipts
      have hword64 : BitVec.ofNat 64 receipts.length = count := by
        rw [hlength, BitVec.ofNat_toNat, BitVec.setWidth_eq]
      refine ⟨⟨hconfig, (hword 128 360 (by decide) (by decide)).mp hfunded,
        (hword 128 376 (by decide) (by decide)).mp hpaid,
        (hword 128 392 (by decide) (by decide)).mp hrefunded,
        (hword 64 408 (by decide) (by decide)).mp hattempts, rfl, rfl, hpad.symm,
        (hword 128 424 (by decide) (by decide)).mp hamount,
        (hword 64 440 (by decide) (by decide)).mp hattempt, by rw [hphases], hhashes, ?_, ?_⟩,
        (validate_ok_iff hvalid).mp hvalidate⟩
      · rw [hword64]
        exact (hword 64 712 (by decide) (by decide)).mp hcount
      · intro i
        rw [hreceipts i, hslots i]
    · rintro ⟨⟨hconfig, hfunded, hpaid, hrefunded, hattempts, hkind, hindex, hpad, hamount, hattempt,
        hphase, hhashes, hcount, hreceipts⟩, hvalid⟩
      have hfew : s.receipts.length ≤ maxAttempts := by
        have hlength := hvalid.receipts_length
        have hle := hvalid.attempts_le
        omega
      have hcountNat : (BitVec.ofNat 64 s.receipts.length).toNat = s.receipts.length := by
        rw [BitVec.toNat_ofNat, Nat.mod_eq_of_lt]
        unfold maxAttempts at hfew
        omega
      have hphaseBytes : (b.extract 448 456).length = 8 := by
        rw [length_extract_of_le (by rw [hlen]; decide)]
      refine ⟨hpad.symm, _, (hword 64 712 (by decide) (by decide)).mpr hcount,
        by rw [hcountNat]; omega, s.deliveryHashes, hhashes, s.receipts, ?_, s.config,
        ⟨hconfig, hvalid.config⟩, s.funded, (hword 128 360 (by decide) (by decide)).mpr hfunded,
        s.paid, (hword 128 376 (by decide) (by decide)).mpr hpaid, s.refunded,
        (hword 128 392 (by decide) (by decide)).mpr hrefunded, s.attempts,
        (hword 64 408 (by decide) (by decide)).mpr hattempts, s.pending.amount,
        (hword 128 424 (by decide) (by decide)).mpr hamount, s.pending.attempt,
        (hword 64 440 (by decide) (by decide)).mpr hattempt, ⟨_, hphaseBytes⟩, rfl, (), ?_⟩
      · rw [hcountNat]
        refine (receiptSlot_iff hfew).mpr ⟨rfl, fun i => ?_⟩
        rw [Subtype.ext_iff, hreceipts i, hslots i]
      · rw [← hkind, ← hindex, ← hphase]
        exact ⟨(validate_ok_iff hvalid.config).mpr hvalid, rfl⟩
  · have hno : s.encode ≠ b := fun h => hlen (h ▸ length_encode s)
    simp only [decode, hlen, ne_eq, not_false_eq_true, true_or, bind_ok_iff, failIf_ok_iff,
      not_true_eq_false, false_and, exists_false, hno]

end

end State

end AvmSdk.Escrow
