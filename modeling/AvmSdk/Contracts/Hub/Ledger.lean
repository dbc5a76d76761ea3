import AvmSdk.Contracts.Hub.Validity

/-!
# The ledger of a valid state

The sums that a vault reports, and the operations on the accounts: a deposit credits every member, a
claim locks an account, a callback settles or releases it.

* `State.Valid.exists_held`, `State.Valid.exists_dust`: the sums are defined, and exact.
* `State.Valid.deposit_eq`: a deposit in range never fails.
* `State.Valid.deposited`, `State.Valid.locked`, `State.Valid.settled`, `State.Valid.released`:
  each operation leads from a valid state to a valid state.
-/

namespace AvmSdk.Hub

open Wire Sdk Contracts Shares

namespace State

variable {s : State}

/-! ## Sums -/

/-- What is on its way to the members. -/
def pendingAmount (s : State) : ℕ := ∑ i, (s.members i).pending.toNat

/-- What the vault holds: received, not paid, and not on its way. -/
def heldAmount (s : State) : ℕ := s.received.toNat - s.paid.toNat - s.pendingAmount

/-- What is pending is summed. -/
theorem pending_ok_iff {v : U128} : s.pending = .ok v ↔ v.toNat = s.pendingAmount := by
  unfold pending pendingAmount
  rw [foldlM_add_iff, sum_finRange]

/-- The accounts of a valid state share out what was received. -/
theorem Valid.sum_balance (h : s.Valid) :
    s.paid.toNat + ∑ i, (s.members i).claimable.toNat + s.pendingAmount = ∑ i, s.entitled i := by
  have hbalance (i : Fin maxMembers) : (s.members i).paid.toNat + (s.members i).claimable.toNat +
      (s.members i).pending.toNat = s.entitled i := by
    by_cases hi : i.val < s.config.count.toNat
    · exact (h.members i hi).balance
    · have hle := Nat.not_lt.mp hi
      rw [entitled_idle h.config hle, h.idle i hle]
      rfl
  rw [← h.paid, pendingAmount, ← Finset.sum_add_distrib, ← Finset.sum_add_distrib]
  exact Finset.sum_congr rfl fun i _ => hbalance i

/-- What was paid and what is on its way was received. -/
theorem Valid.paid_add_pending_le (h : s.Valid) :
    s.paid.toNat + s.pendingAmount ≤ s.received.toNat := by
  have hsum := h.sum_balance
  have hle := sum_entitled_le h.config
  omega

/-- What was received is paid, on its way, or held. -/
theorem Valid.heldAmount_add (h : s.Valid) :
    s.heldAmount + s.pendingAmount + s.paid.toNat = s.received.toNat := by
  have hle := h.paid_add_pending_le
  unfold heldAmount
  omega

/-- What is pending fits in a valid state. -/
theorem Valid.exists_pending (h : s.Valid) : ∃ v, s.pending = .ok v ∧ v.toNat = s.pendingAmount := by
  have hle := h.paid_add_pending_le
  obtain ⟨v, hv⟩ := exists_word_of_le (x := s.received) (m := s.pendingAmount) (by omega)
  exact ⟨v, pending_ok_iff.mpr hv, hv⟩

/-- **`held`** of a valid state. -/
theorem Valid.exists_held (h : s.Valid) : ∃ v, s.held = .ok v ∧ v.toNat = s.heldAmount := by
  obtain ⟨p, hp, hpv⟩ := h.exists_pending
  have hle := h.paid_add_pending_le
  have hadd := h.heldAmount_add
  obtain ⟨left, hleft⟩ := exists_word_of_le (x := s.received) (m := s.received.toNat - s.paid.toNat)
    (by omega)
  obtain ⟨v, hv⟩ := exists_word_of_le (x := s.received) (m := s.heldAmount) (by omega)
  refine ⟨v, ?_, hv⟩
  have hsub : wordCheckedSub s.received s.paid = some left :=
    wordCheckedSub_eq_some.mpr (by omega)
  have hsub' : wordCheckedSub left p = some v := wordCheckedSub_eq_some.mpr (by omega)
  unfold held
  rw [hsub, hp, okOr_ok_iff]
  exact hsub'

/-- What is held is what was received, less what is paid or pending. -/
theorem Valid.held_ok_iff (h : s.Valid) {v : U128} : s.held = .ok v ↔ v.toNat = s.heldAmount := by
  obtain ⟨held, hheld, hvalue⟩ := h.exists_held
  rw [hheld, Except.ok.injEq, ← BitVec.toNat_inj, hvalue]
  exact eq_comm

/-- The sum that `dust` takes off is the sum of the entitlements of the members. -/
theorem dust_eq (s : State) : s.dust =
    sumEntitlements s.received ((firstIndices maxMembers s.config.count.toNat).map fun i =>
      (s.config.members i).weight) >>= fun sum => okOr (wordCheckedSub s.received sum) eState := by
  unfold dust sumEntitlements
  rw [List.foldlM_map]

/-- **`dust`** of a valid state is defined. -/
theorem Valid.exists_dust (h : s.Valid) : ∃ v, s.dust = .ok v := by
  have hle := sum_entitled_le h.config
  have hfront : ((firstIndices maxMembers s.config.count.toNat).map s.entitled).sum =
      ∑ i, s.entitled i := by
    rw [sum_firstIndices, sum_ite_of_zero fun i hi => entitled_idle h.config hi]
  have hweights : ∀ w ∈ (firstIndices maxMembers s.config.count.toNat).map fun i =>
      (s.config.members i).weight, w ≠ 0 ∧ w.toNat ≤ 10000 := by
    rw [List.forall_mem_map]
    intro i hi
    exact ⟨h.config.weight_ne_zero i (mem_firstIndices.mp hi), h.config.weight_le i⟩
  obtain ⟨sum, hsum⟩ := exists_word_of_le hle
  obtain ⟨v, hv⟩ := exists_word_of_le (x := s.received)
    (m := s.received.toNat - ∑ i, s.entitled i) (by omega)
  have hfold := (sumEntitlements_ok_iff hweights).mpr (hsum.trans (by
    rw [← hfront, List.map_map]
    rfl))
  have hsub : wordCheckedSub s.received sum = some v := wordCheckedSub_eq_some.mpr (by omega)
  exact ⟨v, by rw [dust_eq, hfold, ok_bind, hsub, okOr_some]⟩

/-! ## Deposits -/

/-- What a deposit adds to the account of a member. -/
def credit (s : State) (next : U128) (i : Fin maxMembers) : ℕ :=
  share 10000 next.toNat (s.config.members i).weight.toNat - s.entitled i

/-- The state after a deposit that brings the receipts to `next`. -/
def deposited (s : State) (next : U128) : State :=
  { s with
    received := next
    members := fun i =>
      if i.val < s.config.count.toNat then
        { s.members i with
          claimable := BitVec.ofNat 128 ((s.members i).claimable.toNat + s.credit next i) }
      else s.members i }

/-- The credit fits the account. -/
theorem Valid.toNat_credited (h : s.Valid) {next : U128} (hnext : s.received.toNat ≤ next.toNat)
    {i : Fin maxMembers} (hi : i.val < s.config.count.toNat) :
    (BitVec.ofNat 128 ((s.members i).claimable.toNat + s.credit next i)).toNat + s.entitled i =
      (s.members i).claimable.toNat +
        share 10000 next.toNat (s.config.members i).weight.toNat := by
  have hbalance := (h.members i hi).balance
  have hmono : s.entitled i ≤ share 10000 next.toNat (s.config.members i).weight.toNat :=
    share_mono hnext
  have hle : share 10000 next.toNat (s.config.members i).weight.toNat ≤ next.toNat :=
    share_le (h.config.weight_le i)
  have hlt := next.isLt
  rw [BitVec.toNat_ofNat, Nat.mod_eq_of_lt (by unfold credit; omega)]
  unfold credit
  omega

/-- A member is credited its share of the deposit. -/
theorem Valid.creditMember_eq (h : s.Valid) {next : U128} (hnext : s.received.toNat ≤ next.toNat)
    (i : Fin maxMembers) : s.creditMember next i = .ok ((s.deposited next).members i) := by
  unfold creditMember deposited
  by_cases hi : i.val < s.config.count.toNat
  · obtain ⟨after, hafter⟩ := exists_entitlement next (h.config.weight_ne_zero i hi)
      (h.config.weight_le i)
    obtain ⟨before, hbefore⟩ := exists_entitlement s.received
      (h.config.weight_ne_zero i hi) (h.config.weight_le i)
    have hafter' := (entitlement_ok_iff (h.config.weight_ne_zero i hi) (h.config.weight_le i)).mp
      hafter
    have hbefore' := (entitlement_member h.config hi).mp hbefore
    have hcredited := h.toNat_credited hnext hi
    have hmono : s.entitled i ≤ share 10000 next.toNat (s.config.members i).weight.toNat :=
      share_mono hnext
    obtain ⟨delta, hdelta⟩ := exists_word_of_le (x := after) (m := s.credit next i)
      (by unfold credit; omega)
    have hsub : wordCheckedSub after before = some delta := by
      rw [wordCheckedSub_eq_some, hdelta]
      unfold credit
      omega
    have hadd : wordCheckedAdd (s.members i).claimable delta =
        some (BitVec.ofNat 128 ((s.members i).claimable.toNat + s.credit next i)) := by
      rw [wordCheckedAdd_eq_some, hdelta]
      unfold credit at hcredited ⊢
      omega
    simp only [hi, if_true, hafter, hbefore, ok_bind, hsub, okOr_some, hadd]
    rfl
  · simp only [hi, if_false]
    rfl

/-- **A deposit** keeps the state valid. -/
theorem Valid.deposited (h : s.Valid) {next : U128} (hnext : s.received.toNat ≤ next.toNat) :
    (s.deposited next).Valid := by
  have hpaid (i : Fin maxMembers) : ((s.deposited next).members i).paid = (s.members i).paid := by
    unfold State.deposited
    dsimp only
    split_ifs <;> rfl
  refine ⟨h.config, h.fuelLimit_ne_zero, fun i hi => ?_, fun i hi => ?_, ?_, h.noProposal,
    fun hp => ?_⟩
  · have hrow := h.members i hi
    have hbalance := hrow.balance
    have hcredited := h.toNat_credited hnext hi
    have hm : (s.deposited next).members i = { s.members i with
        claimable := BitVec.ofNat 128 ((s.members i).claimable.toNat + s.credit next i) } :=
      if_pos hi
    refine ⟨?_, ?_, ?_, ?_⟩
    · rw [hm]
      show (s.members i).paid.toNat +
        (BitVec.ofNat 128 ((s.members i).claimable.toNat + s.credit next i)).toNat +
          (s.members i).pending.toNat = share 10000 next.toNat (s.config.members i).weight.toNat
      omega
    · rw [hm]
      exact hrow.free
    · rw [hm]
      exact hrow.locked
    · rw [hm]
      exact hrow.callback
  · have hm : (s.deposited next).members i = s.members i := if_neg (Nat.not_lt.mpr hi)
    rw [hm]
    exact h.idle i hi
  · show ∑ i, ((s.deposited next).members i).paid.toNat = s.paid.toNat
    rw [← h.paid]
    exact Finset.sum_congr rfl fun i _ => by rw [hpaid]
  · have hproposal := h.proposal hp
    exact ⟨hproposal.nonce_eq, hproposal.votes_ne_zero, hproposal.votes_known, hproposal.proposes,
      hproposal.ready_eq, hproposal.expires_eq⟩

/-- **`deposit`** in range never fails. -/
theorem Valid.deposit_eq [Target] (h : s.Valid) {amount next : U128} (hamount : amount ≠ 0)
    (hnext : wordCheckedAdd s.received amount = some next) :
    s.deposit amount = .ok (s.deposited next) := by
  have hle : s.received.toNat ≤ next.toNat := by
    have := wordCheckedAdd_eq_some.mp hnext
    omega
  have hmembers : tabulateM maxMembers (s.creditMember next) =
      .ok (s.deposited next).members := tabulateM_ok_iff.mpr (h.creditMember_eq hle)
  have hvalidate : (s.deposited next).validate = .ok () := validate_ok_iff.mpr (h.deposited hle)
  have hguard : failIf (amount = 0) eValue = .ok () := failIf_ok_iff.mpr hamount
  have hstate : { s with received := next, members := (s.deposited next).members } =
      s.deposited next := rfl
  simp only [deposit, hguard, hnext, hmembers, okOr_some, ok_bind, hstate, hvalidate]
  rfl

/-- When a deposit is taken, and what it leaves. -/
theorem Valid.deposit_ok_iff [Target] (h : s.Valid) {amount : U128} {t : State} :
    s.deposit amount = .ok t ↔ amount ≠ 0 ∧
      ∃ next : U128, s.received.toNat + amount.toNat = next.toNat ∧ s.deposited next = t := by
  constructor
  · intro hok
    have hparts := hok
    simp only [deposit, bind_ok_iff, failIf_ok_iff, okOr_ok_iff] at hparts
    obtain ⟨-, hamount, next, hnext, -⟩ := hparts
    rw [h.deposit_eq hamount hnext, Except.ok.injEq] at hok
    exact ⟨hamount, next, wordCheckedAdd_eq_some.mp hnext, hok⟩
  · rintro ⟨hamount, next, hnext, rfl⟩
    exact h.deposit_eq hamount (wordCheckedAdd_eq_some.mpr hnext)

/-- A deposit leaves what is on its way. -/
@[simp] theorem pendingAmount_deposited (next : U128) :
    (s.deposited next).pendingAmount = s.pendingAmount := by
  refine Finset.sum_congr rfl fun i _ => ?_
  unfold deposited
  dsimp only
  split_ifs <;> rfl

/-! ## Claims and callbacks -/

/-- The account that waits for the answer to a claim. -/
def lockMember (m : MemberState) (nonce blockLt : U64) : MemberState :=
  { m with
    pending := m.claimable
    claimable := 0
    nonce := nonce
    afterLt := wordMax blockLt m.lastCallbackLt }

/-- The account whose claim was answered. -/
def unlockMember (m : MemberState) (createdLt : U64) (hash : Bytes32) : MemberState :=
  { m with
    pending := 0
    nonce := 0
    afterLt := 0
    lastCallbackLt := createdLt
    lastCallbackHash := hash }

/-- The state with another account of one member. -/
def withMember (s : State) (i : Fin maxMembers) (m : MemberState) (paid : U128)
    (claimNonce : U64) : State :=
  { s with
    paid := paid
    claimNonce := claimNonce
    members := Function.update s.members i m }

/-- The state after a claim. -/
def locked (s : State) (i : Fin maxMembers) (nonce blockLt : U64) : State :=
  s.withMember i (lockMember (s.members i) nonce blockLt) s.paid nonce

/-- The account with its pending amount counted as paid. -/
def payMember (m : MemberState) : MemberState := { m with paid := m.paid + m.pending }

/-- The account with its pending amount claimable again. -/
def refundMember (m : MemberState) : MemberState := { m with claimable := m.claimable + m.pending }

/-- The state after the receipt of a payment. -/
def settled (s : State) (i : Fin maxMembers) (createdLt : U64) (hash : Bytes32) : State :=
  s.withMember i (unlockMember (payMember (s.members i)) createdLt hash)
    (s.paid + (s.members i).pending) s.claimNonce

/-- The state after the return of a payment. -/
def released (s : State) (i : Fin maxMembers) (createdLt : U64) (hash : Bytes32) : State :=
  s.withMember i (unlockMember (refundMember (s.members i)) createdLt hash) s.paid s.claimNonce

section

variable {i : Fin maxMembers} {m : MemberState} {paid : U128} {claimNonce : U64}

/-- The member that is replaced, -/
@[simp] theorem withMember_self : (s.withMember i m paid claimNonce).members i = m :=
  Function.update_self ..

/-- and the others, which stay. -/
theorem withMember_of_ne {j : Fin maxMembers} (h : j ≠ i) :
    (s.withMember i m paid claimNonce).members j = s.members j := Function.update_of_ne h ..

/-- What is on its way after one account changed. -/
theorem pendingAmount_withMember : (s.withMember i m paid claimNonce).pendingAmount +
    (s.members i).pending.toNat = s.pendingAmount + m.pending.toNat :=
  sum_update_add (fun m : MemberState => m.pending.toNat) s.members i m

/-- **Changing one account** keeps a state valid if the account stays in balance. -/
theorem Valid.withMember (h : s.Valid) (hi : i.val < s.config.count.toNat)
    (hnonce : s.claimNonce ≤ claimNonce)
    (hpaid : paid.toNat + (s.members i).paid.toNat = s.paid.toNat + m.paid.toNat)
    (hm : (s.withMember i m paid claimNonce).MemberOk i) :
    (s.withMember i m paid claimNonce).Valid := by
  refine ⟨h.config, h.fuelLimit_ne_zero, fun j hj => ?_, fun j hj => ?_, ?_, h.noProposal,
    fun hp => ?_⟩
  · by_cases hji : j = i
    · rw [hji]
      exact hm
    · have hrow := h.members j hj
      refine ⟨?_, ?_, ?_, ?_⟩ <;> rw [withMember_of_ne hji]
      · exact hrow.balance
      · exact hrow.free
      · intro hpending
        obtain ⟨hne, hle, hlt⟩ := hrow.locked hpending
        exact ⟨hne, BitVec.le_trans hle hnonce, hlt⟩
      · exact hrow.callback
  · have hji : j ≠ i := by
      rintro rfl
      exact absurd hi (Nat.not_lt.mpr hj)
    rw [withMember_of_ne hji]
    exact h.idle j hj
  · have hsum := sum_update_add (fun m : MemberState => m.paid.toNat) s.members i m
    have htotal := h.paid
    show ∑ j, (Function.update s.members i m j).paid.toNat = paid.toNat
    omega
  · have hproposal := h.proposal hp
    exact ⟨hproposal.nonce_eq, hproposal.votes_ne_zero, hproposal.votes_known, hproposal.proposes,
      hproposal.ready_eq, hproposal.expires_eq⟩

/-- **A claim** keeps the state valid. -/
theorem Valid.locked (h : s.Valid) (hi : i.val < s.config.count.toNat)
    (hidle : (s.members i).pending = 0) (hsome : (s.members i).claimable ≠ 0) {nonce : U64}
    (hnonce : s.claimNonce.toNat + 1 = nonce.toNat) (blockLt : U64) :
    (s.locked i nonce blockLt).Valid := by
  have hrow := h.members i hi
  have hbalance := hrow.balance
  have hpending : (s.members i).pending.toNat = 0 := by rw [hidle]; rfl
  have hpos : nonce ≠ 0 := by
    rintro rfl
    exact absurd hnonce (Nat.succ_ne_zero _)
  refine h.withMember hi (BitVec.le_def.mpr (by omega)) rfl ⟨?_, ?_, ?_, ?_⟩ <;>
    rw [withMember_self]
  · show (s.members i).paid.toNat + 0 + (s.members i).claimable.toNat = s.entitled i
    omega
  · exact fun hnone => absurd hnone hsome
  · intro _
    refine ⟨hpos, BitVec.le_refl _, BitVec.le_def.mpr ?_⟩
    show (s.members i).lastCallbackLt.toNat ≤ (wordMax blockLt (s.members i).lastCallbackLt).toNat
    rw [toNat_wordMax]
    exact le_max_right _ _
  · exact hrow.callback

/-- The account whose claim was answered follows the rules. -/
theorem memberOk_unlock (hm : m.paid.toNat + m.claimable.toNat = s.entitled i) {createdLt : U64}
    {hash : Bytes32} (hlt : createdLt ≠ 0) (hhash : hash ≠ zeros 32) :
    (s.withMember i (unlockMember m createdLt hash) paid claimNonce).MemberOk i := by
  refine ⟨?_, ?_, ?_, ?_⟩ <;> rw [withMember_self]
  · show m.paid.toNat + m.claimable.toNat + 0 = s.entitled i
    exact hm
  · exact fun _ => ⟨rfl, rfl⟩
  · exact fun hpending => absurd rfl hpending
  · exact ⟨fun h => absurd h hlt, fun h => absurd h hhash⟩

/-- What is on its way to one member is on its way. -/
theorem pending_le_pendingAmount (i : Fin maxMembers) :
    (s.members i).pending.toNat ≤ s.pendingAmount :=
  Finset.single_le_sum (f := fun i => (s.members i).pending.toNat) (fun _ _ => Nat.zero_le _)
    (Finset.mem_univ i)

/-- No entitlement exceeds what was received. -/
theorem Valid.entitled_lt (h : s.Valid) : s.entitled i < 2 ^ 128 :=
  (share_le (h.config.weight_le i)).trans_lt s.received.isLt

/-- A payment can be counted as paid by its member. -/
theorem Valid.paid_add_lt (h : s.Valid) (hi : i.val < s.config.count.toNat) :
    (s.members i).paid.toNat + (s.members i).pending.toNat < 2 ^ 128 := by
  have hbalance := (h.members i hi).balance
  have hlt : s.entitled i < 2 ^ 128 := h.entitled_lt
  omega

/-- A payment can be counted as paid in total. -/
theorem Valid.total_add_lt (h : s.Valid) (i : Fin maxMembers) :
    s.paid.toNat + (s.members i).pending.toNat < 2 ^ 128 := by
  have hle := h.paid_add_pending_le
  have hpart := pending_le_pendingAmount (s := s) i
  have hlt := s.received.isLt
  omega

/-- A payment can be made claimable again. -/
theorem Valid.claimable_add_lt (h : s.Valid) (hi : i.val < s.config.count.toNat) :
    (s.members i).claimable.toNat + (s.members i).pending.toNat < 2 ^ 128 := by
  have hbalance := (h.members i hi).balance
  have hlt : s.entitled i < 2 ^ 128 := h.entitled_lt
  omega

/-- **A receipt** keeps the state valid. -/
theorem Valid.settled (h : s.Valid) (hi : i.val < s.config.count.toNat) {createdLt : U64}
    {hash : Bytes32} (hlt : createdLt ≠ 0) (hhash : hash ≠ zeros 32) :
    (s.settled i createdLt hash).Valid := by
  have hbalance := (h.members i hi).balance
  have hpaid : (payMember (s.members i)).paid.toNat =
      (s.members i).paid.toNat + (s.members i).pending.toNat :=
    BitVec.toNat_add_of_lt (h.paid_add_lt hi)
  have htotal : (s.paid + (s.members i).pending).toNat =
      s.paid.toNat + (s.members i).pending.toNat := BitVec.toNat_add_of_lt (h.total_add_lt i)
  refine h.withMember hi (BitVec.le_refl _) ?_ (memberOk_unlock ?_ hlt hhash)
  · show _ = s.paid.toNat + (payMember (s.members i)).paid.toNat
    omega
  · show (payMember (s.members i)).paid.toNat + (s.members i).claimable.toNat = s.entitled i
    omega

/-- **A return** keeps the state valid. -/
theorem Valid.released (h : s.Valid) (hi : i.val < s.config.count.toNat) {createdLt : U64}
    {hash : Bytes32} (hlt : createdLt ≠ 0) (hhash : hash ≠ zeros 32) :
    (s.released i createdLt hash).Valid := by
  have hbalance := (h.members i hi).balance
  have hclaimable : (refundMember (s.members i)).claimable.toNat =
      (s.members i).claimable.toNat + (s.members i).pending.toNat :=
    BitVec.toNat_add_of_lt (h.claimable_add_lt hi)
  refine h.withMember hi (BitVec.le_refl _) rfl (memberOk_unlock ?_ hlt hhash)
  show (s.members i).paid.toNat + (refundMember (s.members i)).claimable.toNat = s.entitled i
  omega

end

/-! ## Proposals -/

/-- The state with other governance: the proposal, the pause and the two copies of the fuel
limit. -/
def governed (s : State) (proposal : Proposal) (proposalNonce : U64) (paused : Bool)
    (fuelLimit initialFuel : U128) : State :=
  { s with
    config := { s.config with initialFuel := initialFuel }
    proposal := proposal
    proposalNonce := proposalNonce
    paused := paused
    fuelLimit := fuelLimit }

/-- **Changing the governance** keeps a state valid if the new proposal follows the rules. -/
theorem Valid.governed (h : s.Valid) {proposal : Proposal} {proposalNonce : U64} {paused : Bool}
    {fuelLimit initialFuel : U128} (hfuel : fuelLimit ≠ 0) (hinitial : initialFuel ≠ 0)
    (hnone : proposal.nonce = 0 → proposal = Proposal.default)
    (hsome : proposal.nonce ≠ 0 →
      (s.governed proposal proposalNonce paused fuelLimit initialFuel).ProposalOk) :
    (s.governed proposal proposalNonce paused fuelLimit initialFuel).Valid where
  config := h.config.withInitialFuel hinitial
  fuelLimit_ne_zero := hfuel
  members := fun i hi =>
    ⟨(h.members i hi).balance, (h.members i hi).free, (h.members i hi).locked,
      (h.members i hi).callback⟩
  idle := h.idle
  paid := h.paid
  noProposal := hnone
  proposal := hsome

end State

end AvmSdk.Hub
