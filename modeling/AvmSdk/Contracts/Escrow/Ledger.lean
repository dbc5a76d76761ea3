import AvmSdk.Contracts.Escrow.Validity

/-!
# The ledger of a bounty escrow

The operations on a valid state: the principal comes in, a milestone is submitted and approved, a
transfer is sent, and its callback closes it.

* `State.Valid.retouched`: a state without a pending transfer stays valid if the milestones follow
  their rules and the sums are right.
* `State.Valid.deposited`, `State.Valid.submitted`, `State.Valid.approved`,
  `State.Valid.dispatchedPayment`, `State.Valid.dispatchedRefund`, `State.Valid.closed`,
  `State.Valid.paidOut`, `State.Valid.refundedAll`: each operation leads from a valid state to a
  valid state.
-/

namespace AvmSdk.Escrow

open Wire Sdk Contracts

/-! ## Names of milestones -/

/-- The index of a milestone fits in a byte, -/
theorem toNat_index (i : Fin maxMilestones) : (BitVec.ofNat 8 i.val).toNat = i.val := by
  have hlt : i.val < 8 := i.isLt
  rw [BitVec.toNat_ofNat, Nat.mod_eq_of_lt (by omega)]

/-- and names the milestone. -/
@[simp] theorem milestone_index (i : Fin maxMilestones) : milestone (BitVec.ofNat 8 i.val) = i :=
  Fin.ext ((congrArg (· % maxMilestones) (toNat_index i)).trans (Nat.mod_eq_of_lt i.isLt))

namespace State

/-- The principal came in. Source: `process`, `state.funded = state.config.total` -/
def deposited (s : State) : State := { s with funded := s.config.total }

/-- Other milestones and other sums. -/
def retouched (s : State) (phases : Fin maxMilestones → U8)
    (deliveryHashes : Fin maxMilestones → Bytes32) (paid refunded : U128) : State :=
  { s with phases := phases, deliveryHashes := deliveryHashes, paid := paid, refunded := refunded }

/-- A delivery was handed in. Source: `process`, `ids::SUBMIT` -/
def submitted (s : State) (i : Fin maxMilestones) (hash : Bytes32) : State :=
  s.retouched (Function.update s.phases i phaseSubmitted) (Function.update s.deliveryHashes i hash)
    s.paid s.refunded

/-- A delivery was approved. Source: `process`, `ids::APPROVE` -/
def approved (s : State) (i : Fin maxMilestones) : State :=
  s.retouched (Function.update s.phases i phaseApproved) s.deliveryHashes s.paid s.refunded

/-- A milestone was paid. Source: `callback`, `if p.kind == 1` -/
def paidOut (s : State) (i : Fin maxMilestones) (amount : U128) : State :=
  s.retouched (Function.update s.phases i phasePaid) s.deliveryHashes (s.paid + amount) s.refunded

/-- The phases after a refund. Source: `callback`, `for phase in &mut state.phases[..]` -/
def refundedPhases (s : State) (i : Fin maxMilestones) : U8 :=
  if s.config.Active i ∧ Refundable (s.phases i) then phaseRefunded else s.phases i

/-- What was neither paid nor approved went back. Source: `callback`, `refunded.checked_add` -/
def refundedAll (s : State) (amount : U128) : State :=
  s.retouched s.refundedPhases s.deliveryHashes s.paid (s.refunded + amount)

/-- A transfer is under way. Source: `dispatch`, `state.pending = Pending { .. }` -/
def dispatched (s : State) (kind index : U8) (amount : U128) : State :=
  { s with attempts := s.attempts + 1, pending := ⟨kind, index, amount, s.attempts + 1⟩ }

/-- The transfer was answered. Source: `callback`, `state.receipts.push` -/
def closed (s : State) (hash : Bytes32) : State :=
  { s with receipts := s.receipts ++ [hash], pending := Pending.default }

/-- The transfer arrived. Source: `callback`, `if success` -/
def settled (s : State) (hash : Bytes32) : State :=
  if s.pending.kind = 1 then (s.closed hash).paidOut (milestone s.pending.index) s.pending.amount
  else (s.closed hash).refundedAll s.pending.amount

variable {s : State} {i j : Fin maxMilestones} {hash : Bytes32} {amount : U128}

/-! ## Phases -/

/-- The phases that a milestone can be in. -/
theorem phase_cases (h : s.Valid) (i : Fin maxMilestones) :
    s.phases i = phaseOpen ∨ s.phases i = phaseSubmitted ∨ s.phases i = phaseApproved ∨
      s.phases i = phasePaid ∨ s.phases i = phaseRefunded := by
  have hle : s.phases i ≤ phaseRefunded := by
    by_cases hi : s.config.Active i
    · exact (h.milestones i hi).phase_le
    · rw [(h.idle i hi).1]
      decide
  revert hle
  generalize s.phases i = p
  revert p
  decide

/-- A phase beyond the first belongs to a milestone. -/
theorem Valid.active_of_ne_open (h : s.Valid) (hi : s.phases i ≠ phaseOpen) : s.config.Active i := by
  by_contra hno
  exact hi (h.idle i hno).1

/-- A funded escrow has the total. -/
theorem Valid.funded_eq (h : s.Valid) (hfunded : s.funded ≠ 0) : s.funded = s.config.total :=
  h.funded_cases.resolve_left hfunded

/-- The refunded phase is the last one. -/
theorem Valid.phase_le (h : s.Valid) (i : Fin maxMilestones) : s.phases i ≤ phaseRefunded := by
  rcases phase_cases h i with hi | hi | hi | hi | hi <;> rw [hi] <;> decide

/-- **The milestones make up the total.** -/
theorem Valid.sum_eq (h : s.Valid) :
    s.paid.toNat + s.refunded.toNat + (s.refundableSum + s.sumWhere (· = phaseApproved)) =
      s.config.total.toNat := by
  rw [h.paid_eq, h.refunded_eq]
  exact sumWhere_total h.config h.phase_le

/-- Changing one phase exchanges its part of a sum. -/
theorem sumWhere_update {hashes : Fin maxMilestones → Bytes32} {paid refunded : U128} {b : U8}
    (p : U8 → Prop) [DecidablePred p] :
    (s.retouched (Function.update s.phases i b) hashes paid refunded).sumWhere p +
        (if p (s.phases i) then (s.config.amounts i).toNat else 0) =
      s.sumWhere p + if p b then (s.config.amounts i).toNat else 0 := by
  have hpair : (fun j => (j, Function.update s.phases i b j)) =
      Function.update (fun j => (j, s.phases j)) i (i, b) := by
    funext j
    by_cases hj : j = i
    · subst hj
      rw [Function.update_self, Function.update_self]
    · rw [Function.update_of_ne hj, Function.update_of_ne hj]
  have hsum := sum_update_add (fun q : Fin maxMilestones × U8 =>
    if p q.2 then (s.config.amounts q.1).toNat else 0) (fun j => (j, s.phases j)) i (i, b)
  rw [← hpair] at hsum
  exact hsum

/-! ## Operations on the milestones -/

/-- **Milestones that follow their rules** keep a state valid, while nothing is pending. -/
theorem Valid.retouched (h : s.Valid) (hfunded : s.funded ≠ 0) (hidle : s.pending.kind = 0)
    {phases : Fin maxMilestones → U8} {hashes : Fin maxMilestones → Bytes32} {paid refunded : U128}
    (hout : ∀ i, ¬ s.config.Active i → phases i = phaseOpen ∧ hashes i = zeros 32)
    (hrules : ∀ i, s.config.Active i → (s.retouched phases hashes paid refunded).MilestoneOk i)
    (hpaid : paid.toNat = (s.retouched phases hashes paid refunded).paidSum)
    (hrefunded : refunded.toNat = (s.retouched phases hashes paid refunded).refundedSum) :
    (s.retouched phases hashes paid refunded).Valid where
  config := h.config
  attempts_le := h.attempts_le
  receipts_length := h.receipts_length
  receipts_ne_zero := h.receipts_ne_zero
  receipts_nodup := h.receipts_nodup
  funded_cases := h.funded_cases
  pristine hno := absurd hno hfunded
  idle := hout
  milestones := hrules
  paid_eq := hpaid
  refunded_eq := hrefunded
  covered := by
    have hle (i : Fin maxMilestones) : phases i ≤ phaseRefunded := by
      by_cases hi : s.config.Active i
      · exact (hrules i hi).phase_le
      · rw [(hout i hi).1]
        decide
    have htotal := sumWhere_total (s := s.retouched phases hashes paid refunded) h.config hle
    have hfunds := congrArg BitVec.toNat (h.funded_eq hfunded)
    show paid.toNat + refunded.toNat ≤ s.funded.toNat
    have hconfig : (s.retouched phases hashes paid refunded).config = s.config := rfl
    rw [← hpaid, ← hrefunded, hconfig] at htotal
    omega
  pending := pendingOk_of_idle (h.pending.idle hidle)
  attempt_eq hno := absurd hidle hno

/-- A milestone that reaches another phase that counts for nothing keeps a state valid. -/
theorem Valid.advanced (h : s.Valid) (hfunded : s.funded ≠ 0) (hidle : s.pending.kind = 0)
    (hi : s.config.Active i) {b : U8} (hle : b ≤ phaseRefunded) (hopen : b ≠ phaseOpen)
    (hhash : hash ≠ zeros 32) {paid refunded : U128}
    (hpaid : paid.toNat = (s.retouched (Function.update s.phases i b)
      (Function.update s.deliveryHashes i hash) paid refunded).paidSum)
    (hrefunded : refunded.toNat = (s.retouched (Function.update s.phases i b)
      (Function.update s.deliveryHashes i hash) paid refunded).refundedSum) :
    (s.retouched (Function.update s.phases i b) (Function.update s.deliveryHashes i hash)
      paid refunded).Valid := by
  refine h.retouched hfunded hidle (fun j hj => ?_) (fun j hj => ?_) hpaid hrefunded
  · have hne : j ≠ i := fun heq => hj (heq ▸ hi)
    rw [Function.update_of_ne hne, Function.update_of_ne hne]
    exact h.idle j hj
  · by_cases hne : j = i
    · subst hne
      have hphase : (s.retouched (Function.update s.phases j b)
          (Function.update s.deliveryHashes j hash) paid refunded).phases j = b :=
        Function.update_self ..
      have hhashes : (s.retouched (Function.update s.phases j b)
          (Function.update s.deliveryHashes j hash) paid refunded).deliveryHashes j = hash :=
        Function.update_self ..
      refine ⟨?_, fun hno => absurd (hphase.symm.trans hno) hopen, fun _ => ?_⟩
      · rw [hphase]
        exact hle
      · rw [hhashes]
        exact hhash
    · have hphase : (s.retouched (Function.update s.phases i b)
          (Function.update s.deliveryHashes i hash) paid refunded).phases j = s.phases j :=
        Function.update_of_ne hne ..
      have hhashes : (s.retouched (Function.update s.phases i b)
          (Function.update s.deliveryHashes i hash) paid refunded).deliveryHashes j =
            s.deliveryHashes j :=
        Function.update_of_ne hne ..
      have hrules := h.milestones j hj
      refine ⟨?_, ?_, ?_⟩
      · rw [hphase]
        exact hrules.phase_le
      · rw [hphase, hhashes]
        exact hrules.hash_eq_zero
      · rw [hphase, hhashes]
        exact hrules.hash_ne_zero

/-- A phase that is not final counts for nothing. -/
theorem sumWhere_advanced {hashes : Fin maxMilestones → Bytes32} {paid refunded : U128} {b : U8}
    {p : U8 → Prop} [DecidablePred p] (hold : ¬ p (s.phases i)) (hnew : ¬ p b) :
    (s.retouched (Function.update s.phases i b) hashes paid refunded).sumWhere p =
      s.sumWhere p := by
  have hsum : (s.retouched (Function.update s.phases i b) hashes paid refunded).sumWhere p +
      (if p (s.phases i) then (s.config.amounts i).toNat else 0) =
        s.sumWhere p + if p b then (s.config.amounts i).toNat else 0 := sumWhere_update p
  rwa [if_neg hold, if_neg hnew] at hsum

/-- A payment adds the amount of its milestone. -/
theorem paidSum_paid {hashes : Fin maxMilestones → Bytes32} {paid refunded : U128}
    (hno : s.phases i ≠ phasePaid) :
    (s.retouched (Function.update s.phases i phasePaid) hashes paid refunded).paidSum =
      s.paidSum + (s.config.amounts i).toNat := by
  have hsum : (s.retouched (Function.update s.phases i phasePaid) hashes paid refunded).paidSum +
      (if s.phases i = phasePaid then (s.config.amounts i).toNat else 0) =
        s.paidSum + if phasePaid = phasePaid then (s.config.amounts i).toNat else 0 :=
    sumWhere_update (· = phasePaid)
  rwa [if_neg hno, if_pos rfl, Nat.add_zero] at hsum

/-- Submitting keeps a state valid, -/
theorem Valid.submitted (h : s.Valid) (hfunded : s.funded ≠ 0) (hidle : s.pending.kind = 0)
    (hi : s.config.Active i) (hphase : Refundable (s.phases i)) (hhash : hash ≠ zeros 32) :
    (s.submitted i hash).Valid := by
  refine h.advanced hfunded hidle hi (by decide) (by decide) hhash ?_ ?_
  · rw [h.paid_eq]
    refine (sumWhere_advanced ?_ (by decide)).symm
    rcases hphase with hphase | hphase <;> rw [hphase] <;> decide
  · rw [h.refunded_eq]
    refine (sumWhere_advanced ?_ (by decide)).symm
    rcases hphase with hphase | hphase <;> rw [hphase] <;> decide

/-- and so does approving. -/
theorem Valid.approved (h : s.Valid) (hfunded : s.funded ≠ 0) (hidle : s.pending.kind = 0)
    (hphase : s.phases i = phaseSubmitted) : (s.approved i).Valid := by
  have hi : s.config.Active i := h.active_of_ne_open (by rw [hphase]; decide)
  have hhash := (h.milestones i hi).hash_ne_zero (.inl hphase)
  have hsame : s.approved i = s.retouched (Function.update s.phases i phaseApproved)
      (Function.update s.deliveryHashes i (s.deliveryHashes i)) s.paid s.refunded := by
    rw [Function.update_eq_self]
    rfl
  rw [hsame]
  refine h.advanced hfunded hidle hi (by decide) (by decide) hhash ?_ ?_
  · rw [h.paid_eq]
    exact (sumWhere_advanced (by rw [hphase]; decide) (by decide)).symm
  · rw [h.refunded_eq]
    exact (sumWhere_advanced (by rw [hphase]; decide) (by decide)).symm

/-- An approved milestone counts among the approved ones. -/
theorem le_approvedSum (hphase : s.phases i = phaseApproved) :
    (s.config.amounts i).toNat ≤ s.sumWhere (· = phaseApproved) := by
  have hsingle := Finset.single_le_sum (s := Finset.univ) (a := i)
    (f := fun i => if s.phases i = phaseApproved then (s.config.amounts i).toNat else 0)
    (fun _ _ => Nat.zero_le _) (Finset.mem_univ i)
  rwa [if_pos hphase] at hsingle

/-- The amount of an approved milestone was not paid yet. -/
theorem Valid.paid_add_lt (h : s.Valid) (hphase : s.phases i = phaseApproved) :
    s.paid.toNat + (s.config.amounts i).toNat < 2 ^ 128 := by
  have hle := le_approvedSum hphase
  have htotal := h.sum_eq
  have hlt := s.config.total.isLt
  omega

/-- A payment that has settled keeps a state valid. -/
theorem Valid.paidOut (h : s.Valid) (hfunded : s.funded ≠ 0) (hidle : s.pending.kind = 0)
    (hphase : s.phases i = phaseApproved) : (s.paidOut i (s.config.amounts i)).Valid := by
  have hi : s.config.Active i := h.active_of_ne_open (by rw [hphase]; decide)
  have hhash := (h.milestones i hi).hash_ne_zero (.inr (.inl hphase))
  have hsame : s.paidOut i (s.config.amounts i) = s.retouched (Function.update s.phases i phasePaid)
      (Function.update s.deliveryHashes i (s.deliveryHashes i)) (s.paid + s.config.amounts i)
        s.refunded := by
    rw [Function.update_eq_self]
    rfl
  rw [hsame]
  refine h.advanced hfunded hidle hi (by decide) (by decide) hhash ?_ ?_
  · rw [BitVec.toNat_add_of_lt (h.paid_add_lt hphase), h.paid_eq]
    exact (paidSum_paid (by rw [hphase]; decide)).symm
  · rw [h.refunded_eq]
    exact (sumWhere_advanced (by rw [hphase]; decide) (by decide)).symm

/-- A refund leaves what was paid, and adds what was refundable. -/
theorem sums_refundedPhases (hc : s.config.Valid) {hashes : Fin maxMilestones → Bytes32}
    {paid refunded : U128} :
    (s.retouched s.refundedPhases hashes paid refunded).paidSum = s.paidSum ∧
      (s.retouched s.refundedPhases hashes paid refunded).refundedSum =
        s.refundedSum + s.refundableSum := by
  have hentry (i : Fin maxMilestones) :
      (if s.refundedPhases i = phasePaid then (s.config.amounts i).toNat else 0) =
          (if s.phases i = phasePaid then (s.config.amounts i).toNat else 0) ∧
        (if s.refundedPhases i = phaseRefunded then (s.config.amounts i).toNat else 0) =
          (if s.phases i = phaseRefunded then (s.config.amounts i).toNat else 0) +
            if Refundable (s.phases i) then (s.config.amounts i).toNat else 0 := by
    unfold refundedPhases
    by_cases hi : s.config.Active i
    · by_cases hrefund : Refundable (s.phases i)
      · have hpaid : ¬ s.phases i = phasePaid := by rcases hrefund with h | h <;> rw [h] <;> decide
        have hrefunded : ¬ s.phases i = phaseRefunded := by
          rcases hrefund with h | h <;> rw [h] <;> decide
        have hne : ¬ phaseRefunded = phasePaid := by decide
        have hboth : s.config.Active i ∧ Refundable (s.phases i) := ⟨hi, hrefund⟩
        rw [if_pos hboth, if_neg hne, if_neg hpaid, if_pos rfl, if_neg hrefunded,
          if_pos hrefund, Nat.zero_add]
        exact ⟨rfl, rfl⟩
      · have hno : ¬ (s.config.Active i ∧ Refundable (s.phases i)) := fun h => hrefund h.2
        rw [if_neg hno, if_neg hrefund, Nat.add_zero]
        exact ⟨rfl, rfl⟩
    · have hzero : (s.config.amounts i).toNat = 0 := by
        rw [hc.idle i hi]
        rfl
      simp only [hzero, ite_self, and_self]
  constructor
  · unfold paidSum sumWhere
    exact Finset.sum_congr rfl fun i _ => (hentry i).1
  · unfold refundedSum refundableSum sumWhere
    rw [← Finset.sum_add_distrib]
    exact Finset.sum_congr rfl fun i _ => (hentry i).2

/-- What is refundable was not refunded yet. -/
theorem Valid.refunded_add_lt (h : s.Valid) (hamount : amount.toNat = s.refundableSum) :
    s.refunded.toNat + amount.toNat < 2 ^ 128 := by
  have htotal := h.sum_eq
  have hlt := s.config.total.isLt
  omega

/-- A refund that has settled keeps a state valid, -/
theorem Valid.refundedAll (h : s.Valid) (hfunded : s.funded ≠ 0) (hidle : s.pending.kind = 0)
    (hamount : amount.toNat = s.refundableSum) : (s.refundedAll amount).Valid := by
  have hsums : (s.retouched s.refundedPhases s.deliveryHashes s.paid
      (s.refunded + amount)).paidSum = s.paidSum ∧
        (s.retouched s.refundedPhases s.deliveryHashes s.paid
          (s.refunded + amount)).refundedSum = s.refundedSum + s.refundableSum :=
    sums_refundedPhases h.config
  obtain ⟨hpaid, hrefunded⟩ := hsums
  refine h.retouched hfunded hidle (fun i hi => ?_) (fun i hi => ?_) ?_ ?_
  · have hno : ¬ (s.config.Active i ∧ Refundable (s.phases i)) := fun hno => hi hno.1
    unfold refundedPhases
    rw [if_neg hno]
    exact h.idle i hi
  · have hrules := h.milestones i hi
    have hphase : (s.retouched s.refundedPhases s.deliveryHashes s.paid
        (s.refunded + amount)).phases i = s.refundedPhases i := rfl
    by_cases hrefund : Refundable (s.phases i)
    · have hphase : (s.retouched s.refundedPhases s.deliveryHashes s.paid
          (s.refunded + amount)).phases i = phaseRefunded :=
        if_pos ⟨hi, hrefund⟩
      refine ⟨?_, fun hno => ?_, fun hno => ?_⟩
      · rw [hphase]
        exact BitVec.le_refl _
      · exact absurd (hphase.symm.trans hno) (by decide)
      · rw [hphase] at hno
        exact absurd hno (by decide)
    · have hphase : (s.retouched s.refundedPhases s.deliveryHashes s.paid
          (s.refunded + amount)).phases i = s.phases i :=
        if_neg fun hno => hrefund hno.2
      refine ⟨?_, ?_, ?_⟩
      · rw [hphase]
        exact hrules.phase_le
      · rw [hphase]
        exact hrules.hash_eq_zero
      · rw [hphase]
        exact hrules.hash_ne_zero
  · rw [h.paid_eq]
    exact hpaid.symm
  · rw [BitVec.toNat_add_of_lt (h.refunded_add_lt hamount), h.refunded_eq, hamount]
    exact hrefunded.symm

/-! ## Operations on the transfer -/

/-- and so does funding. -/
theorem Valid.deposited (h : s.Valid) : s.deposited.Valid where
  config := h.config
  attempts_le := h.attempts_le
  receipts_length := h.receipts_length
  receipts_ne_zero := h.receipts_ne_zero
  receipts_nodup := h.receipts_nodup
  funded_cases := .inr rfl
  pristine hno := absurd hno h.config.total_ne_zero
  idle := h.idle
  milestones i hi := ⟨(h.milestones i hi).phase_le, (h.milestones i hi).hash_eq_zero,
    (h.milestones i hi).hash_ne_zero⟩
  paid_eq := h.paid_eq
  refunded_eq := h.refunded_eq
  covered := by
    have htotal := h.sum_eq
    show s.paid.toNat + s.refunded.toNat ≤ s.config.total.toNat
    omega
  pending := ⟨h.pending.kind_cases, h.pending.idle, h.pending.payment, h.pending.refund⟩
  attempt_eq hno := ⟨(h.attempt_eq hno).1, h.config.total_ne_zero⟩

/-- The count of the attempts does not wrap. -/
theorem toNat_attempts_succ (hroom : s.attempts.toNat < maxAttempts) :
    (s.attempts + 1).toNat = s.attempts.toNat + 1 := by
  have hone : (1 : U64).toNat = 1 := rfl
  unfold maxAttempts at hroom
  rw [BitVec.toNat_add_of_lt (by omega), hone]

/-- **A transfer** that follows the rules can be sent. -/
theorem Valid.dispatched (h : s.Valid) (hfunded : s.funded ≠ 0) (hidle : s.pending.kind = 0)
    (hroom : s.attempts.toNat < maxAttempts) {kind index : U8}
    (hpending : (s.dispatched kind index amount).PendingOk) (hkind : kind ≠ 0) :
    (s.dispatched kind index amount).Valid where
  config := h.config
  attempts_le := by
    have hnext := toNat_attempts_succ hroom
    show (s.attempts + 1).toNat ≤ maxAttempts
    omega
  receipts_length := by
    have hnext := toNat_attempts_succ hroom
    have hlength := h.receipts_length
    rw [if_neg (not_not.mpr hidle)] at hlength
    show s.receipts.length + (if kind ≠ 0 then 1 else 0) = (s.attempts + 1).toNat
    rw [if_pos hkind, hnext]
    omega
  receipts_ne_zero := h.receipts_ne_zero
  receipts_nodup := h.receipts_nodup
  funded_cases := h.funded_cases
  pristine hno := absurd hno hfunded
  idle := h.idle
  milestones i hi := ⟨(h.milestones i hi).phase_le, (h.milestones i hi).hash_eq_zero,
    (h.milestones i hi).hash_ne_zero⟩
  paid_eq := h.paid_eq
  refunded_eq := h.refunded_eq
  covered := h.covered
  pending := hpending
  attempt_eq _ := ⟨rfl, hfunded⟩

/-- The callback of a transfer closes it. -/
theorem Valid.closed (h : s.Valid) (hpending : s.pending.kind ≠ 0) (hhash : hash ≠ zeros 32)
    (hfresh : hash ∉ s.receipts) : (s.closed hash).Valid where
  config := h.config
  attempts_le := h.attempts_le
  receipts_length := by
    have hlength := h.receipts_length
    rw [if_pos hpending] at hlength
    show (s.receipts ++ [hash]).length + 0 = s.attempts.toNat
    rw [List.length_append, List.length_singleton]
    exact hlength
  receipts_ne_zero g hg := by
    rcases List.mem_append.mp hg with hg | hg
    · exact h.receipts_ne_zero g hg
    · rw [List.mem_singleton.mp hg]
      exact hhash
  receipts_nodup := by
    show (s.receipts ++ [hash]).Nodup
    rw [List.nodup_append]
    refine ⟨h.receipts_nodup, List.nodup_singleton _, ?_⟩
    intro g hg g' hg' heq
    rw [List.mem_singleton.mp hg'] at heq
    exact hfresh (heq ▸ hg)
  funded_cases := h.funded_cases
  pristine := h.pristine
  idle := h.idle
  milestones i hi := ⟨(h.milestones i hi).phase_le, (h.milestones i hi).hash_eq_zero,
    (h.milestones i hi).hash_ne_zero⟩
  paid_eq := h.paid_eq
  refunded_eq := h.refunded_eq
  covered := h.covered
  pending := pendingOk_of_idle rfl
  attempt_eq hno := absurd rfl hno

/-- A success settles the transfer. -/
theorem Valid.settled (h : s.Valid) (hpending : s.pending.kind ≠ 0) (hhash : hash ≠ zeros 32)
    (hfresh : hash ∉ s.receipts) : (s.settled hash).Valid := by
  have hclosed := h.closed hpending hhash hfresh
  have hfunded := (h.attempt_eq hpending).2
  unfold State.settled
  by_cases hkind : s.pending.kind = 1
  · obtain ⟨-, hphase, hamount⟩ := h.pending.payment hkind
    rw [if_pos hkind, hamount]
    exact hclosed.paidOut hfunded rfl hphase
  · have htwo := (h.pending.kind_cases.resolve_left hpending).resolve_left hkind
    rw [if_neg hkind]
    exact hclosed.refundedAll hfunded rfl (h.pending.refund htwo).2.2

/-- The payment of an approved milestone can be sent. -/
theorem Valid.dispatchedPayment (h : s.Valid) (hfunded : s.funded ≠ 0) (hidle : s.pending.kind = 0)
    (hroom : s.attempts.toNat < maxAttempts) (hphase : s.phases i = phaseApproved) :
    (s.dispatched 1 (BitVec.ofNat 8 i.val) (s.config.amounts i)).Valid := by
  have hactive := h.active_of_ne_open (i := i) (by rw [hphase]; decide)
  refine h.dispatched hfunded hidle hroom (pendingOk_of_payment rfl ?_) (by decide)
  show (BitVec.ofNat 8 i.val).toNat < s.config.count.toNat ∧
    s.phases (milestone (BitVec.ofNat 8 i.val)) = phaseApproved ∧
    s.config.amounts i = s.config.amounts (milestone (BitVec.ofNat 8 i.val))
  rw [milestone_index, toNat_index]
  exact ⟨hactive, hphase, rfl⟩

/-- The refund of what is refundable can be sent. -/
theorem Valid.dispatchedRefund (h : s.Valid) (hfunded : s.funded ≠ 0) (hidle : s.pending.kind = 0)
    (hroom : s.attempts.toNat < maxAttempts) (hsome : amount ≠ 0)
    (hamount : amount.toNat = s.refundableSum) : (s.dispatched 2 255 amount).Valid :=
  h.dispatched hfunded hidle hroom (pendingOk_of_refund rfl ⟨rfl, hsome, hamount⟩) (by decide)

end State

end AvmSdk.Escrow
