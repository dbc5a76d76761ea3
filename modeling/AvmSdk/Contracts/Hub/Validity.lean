import AvmSdk.Contracts.Hub.State
import Mathlib.Algebra.BigOperators.Pi

/-!
# Valid vault states

What `State::validate` accepts, in terms of exact numbers, and what the sums of the ledger are then.

* `State.Valid`: the ledger equations of every member, the rules of a pending claim, the rules of a
  stored proposal. `State.validate_ok_iff`. The clause about the rounding remainder follows from
  the others (`State.Valid.sum_entitled_le`, `State.Valid.lt_sum_entitled_add`).
* `State.decode_ok_iff`: the decoder accepts exactly the encodings of valid states whose two copies
  of the fuel limit agree.
* `State.Valid.held_eq`, `State.Valid.exists_dust`, `State.Valid.deposit_ok_iff`.
-/

namespace AvmSdk.Hub

open Wire Sdk Contracts Shares

namespace Proposal

/-- A proposal that can be stored. -/
structure Proposes (nonce : U64) (action : U8) (value : U128) : Prop where
  nonce_ne_zero : nonce ≠ 0
  action_known : action = pause ∨ action = resume ∨ action = setFuel
  value_iff : action = setFuel ↔ value ≠ 0

/-- The length of the body of a proposal. -/
@[simp] theorem length_body (p : Proposal) : p.body.length = 25 := by
  simp [body]

/-- The body of a proposal determines its nonce, action and value. -/
theorem body_inj {p q : Proposal} (h : p.body = q.body) :
    p.nonce = q.nonce ∧ p.action = q.action ∧ p.value = q.value := by
  obtain ⟨hnonce, hrest⟩ := List.append_inj h (by simp)
  rw [List.cons.injEq] at hrest
  exact ⟨toLe_inj (by decide) hnonce, hrest.1, toLe_inj (by decide) hrest.2⟩

/-- What the decoder of bodies rejects. -/
theorem not_rejected_iff {nonce : U64} {action : U8} {value : U128} :
    ¬ (nonce = 0 ∨ ¬ (action = pause ∨ action = resume ∨ action = setFuel) ∨
      action ≠ setFuel ∧ value ≠ 0 ∨ action = setFuel ∧ value = 0) ↔
      Proposes nonce action value := by
  constructor
  · intro h
    push Not at h
    exact ⟨h.1, h.2.1, ⟨h.2.2.2, fun hv => by_contra fun ha => hv (h.2.2.1 ha)⟩⟩
  · rintro ⟨hnonce, hknown, hvalue⟩ (h | h | h | h)
    · exact hnonce h
    · exact h hknown
    · exact h.1 (hvalue.mpr h.2)
    · exact hvalue.mp h.1 h.2

/-- **Bodies of proposals** are read back exactly. -/
theorem decodeBody_ok_iff [Target] {b : Bytes} {nonce : U64} {action : U8} {value : U128} :
    decodeBody b = .ok (nonce, action, value) ↔
      Proposes nonce action value ∧ b = toLe nonce ++ (action :: toLe value) := by
  have hparts : toLe nonce ++ (action :: toLe value) =
      [toLe nonce, [action], toLe value].flatten := by simp
  have hlens : [toLe nonce, [action], toLe value].map List.length = [8, 1, 16] := by simp
  simp only [decodeBody, bind_ok_iff, failIf_ok_iff, pure_ok_iff, exists_const, not_rejected_iff,
    Prod.mk.injEq, ne_eq, not_not]
  constructor
  · rintro ⟨hlen, n, hn, v, hv, hproposes, rfl, rfl, rfl⟩
    rw [wordAt_ok_iff (by omega) (by decide) (by omega)] at hn hv
    refine ⟨hproposes, ?_⟩
    rw [hparts, eq_comm, flatten_eq_iff hlens hlen, hn, hv, splitParts, splitParts,
      ← extract_one (by omega)]
    rfl
  · rintro ⟨hproposes, rfl⟩
    have hlen : (toLe nonce ++ (action :: toLe value)).length = 25 := by simp
    have hsplit := (flatten_eq_iff hlens hlen).mp hparts.symm
    simp only [splitParts, List.cons.injEq] at hsplit
    have haction : (toLe nonce ++ (action :: toLe value)).getD 8 0 = action := by
      have hone := hsplit.2.1
      rw [Nat.zero_add, extract_one (d := 0) (by omega), List.cons.injEq] at hone
      exact hone.1.symm
    rw [haction]
    refine ⟨hlen, nonce, ?_, value, ?_, hproposes, rfl, rfl, rfl⟩
    · exact (wordAt_ok_iff (by omega) (by decide) (by omega)).mpr hsplit.1
    · exact (wordAt_ok_iff (by omega) (by decide) (by omega)).mpr hsplit.2.2.1

end Proposal

namespace State

/-- The entitlement of a member, exactly. -/
def entitled (s : State) (i : Fin maxMembers) : ℕ :=
  share 10000 s.received.toNat (s.config.members i).weight.toNat

/-- The account of a member that passes its checks. -/
structure MemberOk (s : State) (i : Fin maxMembers) : Prop where
  balance : (s.members i).paid.toNat + (s.members i).claimable.toNat +
    (s.members i).pending.toNat = s.entitled i
  free : (s.members i).pending = 0 → (s.members i).nonce = 0 ∧ (s.members i).afterLt = 0
  locked : (s.members i).pending ≠ 0 → (s.members i).nonce ≠ 0 ∧
    (s.members i).nonce ≤ s.claimNonce ∧ (s.members i).lastCallbackLt ≤ (s.members i).afterLt
  callback : (s.members i).lastCallbackLt = 0 ↔ (s.members i).lastCallbackHash = zeros 32

/-- A stored proposal that passes its checks. -/
structure ProposalOk (s : State) : Prop where
  nonce_eq : s.proposal.nonce = s.proposalNonce
  votes_ne_zero : s.proposal.votes ≠ 0
  votes_known : s.proposal.votes &&& ~~~7 = 0
  proposes : Proposal.Proposes s.proposal.nonce s.proposal.action s.proposal.value
  ready_eq : s.proposal.created.toNat + s.config.delay.toNat = s.proposal.ready.toNat
  expires_eq : s.proposal.ready.toNat + s.config.voteWindow.toNat = s.proposal.expires.toNat

/-- The states that pass the check. -/
structure Valid (s : State) : Prop where
  config : s.config.Valid
  fuelLimit_ne_zero : s.fuelLimit ≠ 0
  members : ∀ i, i.val < s.config.count.toNat → s.MemberOk i
  idle : ∀ i, s.config.count.toNat ≤ i.val → s.members i = MemberState.default
  paid : ∑ i, (s.members i).paid.toNat = s.paid.toNat
  noProposal : s.proposal.nonce = 0 → s.proposal = Proposal.default
  proposal : s.proposal.nonce ≠ 0 → s.ProposalOk

variable {s : State}

/-! ## Validation -/

/-- What one account adds to the two sums of the validator: what it paid, and all of it. -/
def accounted (s : State) (i : Fin maxMembers) : ℕ × ℕ :=
  ((s.members i).paid.toNat, (s.members i).paid.toNat + (s.members i).claimable.toNat +
    (s.members i).pending.toNat)

/-- The rules of the accounts of a state with a valid configuration. -/
def AccountOk (s : State) (i : Fin maxMembers) : Prop :=
  (i.val < s.config.count.toNat → s.MemberOk i) ∧
    (s.config.count.toNat ≤ i.val → s.members i = MemberState.default)

/-- The entitlement of a member in the words of the code. -/
theorem entitlement_member (hc : s.config.Valid) {i : Fin maxMembers}
    (hi : i.val < s.config.count.toNat) {v : U128} :
    entitlement s.received (s.config.members i).weight = .ok v ↔ v.toNat = s.entitled i :=
  entitlement_ok_iff (hc.weight_ne_zero i hi) (hc.weight_le i)

/-- What the checks of a running account reject. -/
theorem not_rejected_iff {sum part : U128} {m : MemberState} {nonce : U64} :
    ¬ (sum ≠ part ∨ m.pending = 0 ∧ (m.nonce ≠ 0 ∨ m.afterLt ≠ 0) ∨
      m.pending ≠ 0 ∧ (m.nonce = 0 ∨ nonce < m.nonce ∨ m.afterLt < m.lastCallbackLt) ∨
      ¬ (m.lastCallbackLt = 0 ↔ m.lastCallbackHash = zeros 32)) ↔
      sum = part ∧ (m.pending = 0 → m.nonce = 0 ∧ m.afterLt = 0) ∧
        (m.pending ≠ 0 → m.nonce ≠ 0 ∧ m.nonce ≤ nonce ∧ m.lastCallbackLt ≤ m.afterLt) ∧
        (m.lastCallbackLt = 0 ↔ m.lastCallbackHash = zeros 32) := by
  simp only [not_or, not_and, not_not, ne_eq, BitVec.not_lt]

/-- The checks of a running account. -/
theorem checkMember_running_iff (hc : s.config.Valid) {sums sums' : U128 × U128}
    {i : Fin maxMembers} (hi : i.val < s.config.count.toNat) :
    s.checkMember sums i = .ok sums' ↔ s.MemberOk i ∧
      (sums'.1.toNat, sums'.2.toNat) = (sums.1.toNat, sums.2.toNat) + s.accounted i := by
  have hrun : ¬ s.config.count.toNat ≤ i.val := Nat.not_le.mpr hi
  simp only [checkMember, hrun, if_false, bind_ok_iff, okOr_ok_iff, Option.bind_eq_some_iff,
    wordCheckedAdd_eq_some, entitlement_member hc hi, failIf_ok_iff, not_rejected_iff, pure_ok_iff,
    exists_const, accounted, Prod.mk_add_mk, Prod.mk.injEq]
  constructor
  · rintro ⟨sum, ⟨v, hv, hsum⟩, part, hpart, ⟨rfl, hfree, hlocked, hcallback⟩, paid, hpaid, all,
      hall, rfl⟩
    refine ⟨⟨by omega, hfree, hlocked, hcallback⟩, hpaid.symm, ?_⟩
    rw [← hall, ← hsum, ← hv]
  · rintro ⟨h, hpaid, hall⟩
    have hbalance := h.balance
    obtain ⟨sum, hsum⟩ := exists_word_of_le (x := sums'.2) (m := s.entitled i) (by omega)
    obtain ⟨v, hv⟩ := exists_word_of_le (x := sum)
      (m := (s.members i).paid.toNat + (s.members i).claimable.toNat) (by omega)
    exact ⟨sum, ⟨v, hv.symm, by omega⟩, sum, hsum, ⟨rfl, h.free, h.locked, h.callback⟩, sums'.1,
      hpaid.symm, sums'.2, by omega, rfl⟩

/-- An account passes its checks, and adds to the sums. -/
theorem checkMember_ok_iff (hc : s.config.Valid) {sums sums' : U128 × U128} {i : Fin maxMembers} :
    s.checkMember sums i = .ok sums' ↔ s.AccountOk i ∧
      (sums'.1.toNat, sums'.2.toNat) = (sums.1.toNat, sums.2.toNat) + s.accounted i := by
  by_cases hi : i.val < s.config.count.toNat
  · have hle : ¬ s.config.count.toNat ≤ i.val := Nat.not_le.mpr hi
    simp only [checkMember_running_iff hc hi, AccountOk, hi, hle, forall_const, false_implies,
      and_true]
  · have hle : s.config.count.toNat ≤ i.val := Nat.not_lt.mp hi
    simp only [checkMember, hle, if_true, bind_ok_iff, failIf_ok_iff, pure_ok_iff, exists_const,
      ne_eq, not_not, AccountOk, hi, forall_const, false_implies, true_and]
    refine and_congr_right fun hm => ?_
    have hzero : s.accounted i = 0 := by
      rw [accounted, hm]
      rfl
    rw [hzero, add_zero, Prod.mk.injEq, Prod.ext_iff, eq_comm (a := sums.1), eq_comm (a := sums.2),
      BitVec.toNat_inj, BitVec.toNat_inj]

/-- The loop over the accounts succeeds when each of them passes, with the two sums. -/
theorem foldlM_checkMember_ok_iff (hc : s.config.Valid) {sums : U128 × U128} :
    (List.finRange maxMembers).foldlM s.checkMember ((0 : U128), (0 : U128)) = .ok sums ↔
      (∀ i, s.AccountOk i) ∧ (sums.1.toNat, sums.2.toNat) = ∑ i, s.accounted i := by
  have htallies : Tallies fun t : U128 × U128 => (t.1.toNat, t.2.toNat) :=
    (tallies_toNat 128).prod (tallies_toNat 128)
  have h := foldlM_total_zero_iff htallies (P := s.AccountOk) (f := s.accounted)
    (fun _ _ _ => checkMember_ok_iff hc) (t := (0, 0)) rfl (List.finRange maxMembers) (u := sums)
  simpa only [List.mem_finRange, forall_const, sum_finRange] using h

/-! ## Sums -/

/-- The entitlements are not more than what was received. -/
theorem sum_entitled_le (hc : s.config.Valid) : ∑ i, s.entitled i ≤ s.received.toNat :=
  sum_share_le Finset.univ hc.weights_sum

/-- The entitlements of the idle places are nothing. -/
theorem entitled_idle (hc : s.config.Valid) {i : Fin maxMembers}
    (hi : s.config.count.toNat ≤ i.val) : s.entitled i = 0 := by
  unfold entitled
  rw [hc.idle i hi]
  exact share_zero_weight

/-- The entitlements fall short of what was received by less than a unit a member. -/
theorem lt_sum_entitled_add (hc : s.config.Valid) :
    s.received.toNat < ∑ i, s.entitled i + s.config.count.toNat := by
  have hfront (f : Fin maxMembers → ℕ) (hf : ∀ i, s.config.count.toNat ≤ i.val → f i = 0) :
      ∑ i ∈ Finset.univ.filter (fun i : Fin maxMembers => i.val < s.config.count.toNat), f i =
        ∑ i, f i := by
    rw [Finset.sum_filter]
    exact sum_ite_of_zero hf
  have hcard : (Finset.univ.filter
      fun i : Fin maxMembers => i.val < s.config.count.toNat).card = s.config.count.toNat := by
    rw [Fin.card_filter_val_lt, Nat.min_eq_right hc.count_le]
  have hnonempty : (Finset.univ.filter
      fun i : Fin maxMembers => i.val < s.config.count.toNat).Nonempty := by
    rw [← Finset.card_pos, hcard]
    exact Nat.pos_of_ne_zero hc.count_ne_zero
  have hweights : ∑ i ∈ Finset.univ.filter (fun i : Fin maxMembers => i.val < s.config.count.toNat),
      (s.config.members i).weight.toNat = 10000 := by
    rw [hfront _ fun i hi => by rw [hc.idle i hi]; rfl]
    exact hc.weights_sum
  have hlt : s.received.toNat <
      ∑ i ∈ Finset.univ.filter (fun i : Fin maxMembers => i.val < s.config.count.toNat),
        s.entitled i + (Finset.univ.filter
          fun i : Fin maxMembers => i.val < s.config.count.toNat).card :=
    lt_sum_share_add_card _ (by norm_num) hnonempty hweights
  rwa [hfront _ fun i hi => entitled_idle hc hi, hcard] at hlt

/-- The sums of the validator, in a state whose accounts pass. -/
theorem sum_accounted (hm : ∀ i, s.AccountOk i) (hc : s.config.Valid) :
    ∑ i, s.accounted i = (∑ i, (s.members i).paid.toNat, ∑ i, s.entitled i) := by
  have hpaid (i : Fin maxMembers) : (s.accounted i).1 = (s.members i).paid.toNat := rfl
  have hall (i : Fin maxMembers) : (s.accounted i).2 = s.entitled i := by
    by_cases hi : i.val < s.config.count.toNat
    · unfold accounted
      exact ((hm i).1 hi).balance
    · have hle := Nat.not_lt.mp hi
      rw [entitled_idle hc hle, accounted, (hm i).2 hle]
      rfl
  refine Prod.ext ?_ ?_
  · rw [Prod.fst_sum]
    simp only [hpaid]
  · rw [Prod.snd_sum]
    simp only [hall]

/-- The clause about the rounding remainder never rejects. -/
theorem not_dusty (hc : s.config.Valid) {all : U128} (hall : all.toNat = ∑ i, s.entitled i) :
    ¬ (s.received < all ∨ s.config.count.zeroExtend 128 ≤ s.received - all) := by
  have hle := sum_entitled_le hc
  have hlt := lt_sum_entitled_add hc
  have hcount : (s.config.count.zeroExtend 128).toNat = s.config.count.toNat := by
    rw [BitVec.toNat_setWidth, Nat.mod_eq_of_lt (by omega)]
  rw [not_or, BitVec.not_lt, BitVec.not_le, BitVec.le_def, BitVec.lt_def, hcount,
    BitVec.toNat_sub_of_le (BitVec.le_def.mpr (by omega))]
  omega

section

variable [Target]

/-- The body of a stored proposal is one that can be proposed. -/
theorem decodeBody_body_ne_none_iff {p : Proposal} :
    ¬ (Proposal.decodeBody p.body).toOption = none ↔
      Proposal.Proposes p.nonce p.action p.value := by
  rw [← ne_eq, Option.ne_none_iff_exists']
  constructor
  · rintro ⟨⟨nonce, action, value⟩, h⟩
    have hok : Proposal.decodeBody p.body = .ok (nonce, action, value) := by
      cases hd : Proposal.decodeBody p.body with
      | error e => rw [hd] at h; exact absurd h nofun
      | ok r => rw [hd] at h; exact congrArg Except.ok (Option.some.inj h)
    obtain ⟨hproposes, hbody⟩ := Proposal.decodeBody_ok_iff.mp hok
    obtain ⟨rfl, rfl, rfl⟩ := Proposal.body_inj (q := ⟨nonce, action, 0, value, 0, 0, 0⟩) hbody
    exact hproposes
  · intro h
    have hok : Proposal.decodeBody p.body = .ok (p.nonce, p.action, p.value) :=
      Proposal.decodeBody_ok_iff.mpr ⟨h, rfl⟩
    exact ⟨_, by rw [hok]; rfl⟩

/-- The checks of the proposal. -/
theorem checkProposal_ok_iff {u : Unit} : s.checkProposal = .ok u ↔
    (s.proposal.nonce = 0 → s.proposal = Proposal.default) ∧
      (s.proposal.nonce ≠ 0 → s.ProposalOk) := by
  unfold checkProposal
  by_cases h : s.proposal.nonce = 0
  · simp [h]
  · simp only [h, if_false, failIf_ok_iff, not_or, ne_eq, not_not, false_implies, true_and,
      not_false_eq_true, forall_const, decodeBody_body_ne_none_iff, wordCheckedAdd_eq_some]
    constructor
    · rintro ⟨hnonce, hvotes, hknown, hproposes, hready, hexpires⟩
      exact ⟨hnonce, hvotes, hknown, hproposes, hready, hexpires⟩
    · rintro ⟨hnonce, hvotes, hknown, hproposes, hready, hexpires⟩
      exact ⟨hnonce, hvotes, hknown, hproposes, hready, hexpires⟩

/-- **Validation of a state.** -/
theorem validate_ok_iff {u : Unit} : s.validate = .ok u ↔ s.Valid := by
  simp only [validate, bind_ok_iff, mapError_ok_iff, Config.validate_ok_iff, failIf_ok_iff,
    checkProposal_ok_iff, exists_const]
  constructor
  · rintro ⟨hc, hfuel, ⟨paid, all⟩, hfold, hsums, hnone, hsome⟩
    obtain ⟨hm, hsum⟩ := (foldlM_checkMember_ok_iff hc).mp hfold
    rw [sum_accounted hm hc, Prod.mk.injEq] at hsum
    rw [not_or, not_not] at hsums
    exact {
      config := hc
      fuelLimit_ne_zero := hfuel
      members := fun i hi => (hm i).1 hi
      idle := fun i hi => (hm i).2 hi
      paid := by rw [← hsums.1, ← hsum.1]
      noProposal := hnone
      proposal := hsome }
  · intro h
    have hm (i : Fin maxMembers) : s.AccountOk i := ⟨h.members i, h.idle i⟩
    have hle := (sum_entitled_le h.config)
    obtain ⟨all, hall⟩ := exists_word_of_le hle
    refine ⟨h.config, h.fuelLimit_ne_zero, (s.paid, all), ?_, ?_, h.noProposal, h.proposal⟩
    · rw [foldlM_checkMember_ok_iff h.config, sum_accounted hm h.config, h.paid, hall]
      exact ⟨hm, rfl⟩
    · rw [not_or, not_not]
      exact ⟨rfl, not_dusty h.config hall⟩

/-! ## Encoding -/

omit [Target] in
/-- The lengths of the fields of a member, -/
theorem lengths_encodeMember (m : MemberState) :
    [toLe m.claimable, toLe m.paid, toLe m.pending, toLe m.nonce, toLe m.afterLt,
      toLe m.lastCallbackLt, m.lastCallbackHash.val].map List.length =
      [16, 16, 16, 8, 8, 8, 32] := by
  simp

omit [Target] in
/-- and that of the member. -/
@[simp] theorem length_encodeMember (m : MemberState) : (encodeMember m).length = 104 :=
  length_flatten_of_lengths (lengths_encodeMember m)

omit [Target] in
/-- The lengths of the fields of a proposal, -/
theorem lengths_encodeProposal (p : Proposal) :
    [toLe p.nonce, [p.action], [p.votes], (zeros 6).val, toLe p.value, toLe p.created,
      toLe p.ready, toLe p.expires, (zeros 4).val].map List.length =
      [8, 1, 1, 6, 16, 4, 4, 4, 4] := by
  simp

omit [Target] in
/-- and that of the proposal. -/
@[simp] theorem length_encodeProposal (p : Proposal) : (encodeProposal p).length = 48 :=
  length_flatten_of_lengths (lengths_encodeProposal p)

omit [Target] in
/-- The lengths of the fields of a state, -/
theorem lengths_encode (s : State) :
    [{ s.config with initialFuel := s.fuelLimit }.encode, toLe s.received, toLe s.paid,
      toLe s.claimNonce, toLe s.proposalNonce, [if s.paused then 1 else 0], (zeros 7).val,
      encodeProposal s.proposal,
      (List.ofFn fun i => encodeMember (s.members i)).flatten].map List.length =
      [1792, 16, 16, 8, 8, 1, 7, 48, 1664] := by
  have hmembers : (List.ofFn fun i => encodeMember (s.members i)).flatten.length = 16 * 104 :=
    length_flatten_rows fun i => length_encodeMember _
  simp only [List.map_cons, List.map_nil, hmembers, length_toLe, length_bytesN,
    List.length_singleton, Config.length_encode, length_encodeProposal]

omit [Target] in
/-- and that of them all. -/
@[simp] theorem length_encode (s : State) : s.encode.length = stateBytes :=
  length_flatten_of_lengths (lengths_encode s)

/-- A row of the table of accounts is decoded exactly when it is the encoding of the account. -/
theorem decodeMember_ok_iff {b : Bytes} (hlen : b.length = stateBytes) {i : Fin maxMembers}
    {m : MemberState} : decodeMember b i = .ok m ↔
      encodeMember m = b.extract (1896 + i * 104) (1896 + i * 104 + 104) := by
  have hi := i.isLt
  have hsmall : b.length < 2 ^ 32 := by rw [hlen]; decide
  have hrow : 1896 + i.val * 104 + 104 ≤ b.length := by
    rw [hlen]
    unfold stateBytes maxMembers at *
    omega
  have hrows := flatten_eq_extract_iff (lengths_encodeMember m) hrow
  simp only [splitParts, List.cons.injEq, and_true, List.sum_cons, List.sum_nil,
    Nat.reduceAdd] at hrows
  simp only [decodeMember, bind_ok_iff, pure_ok_iff, encodeMember, hrows]
  generalize 1896 + i.val * 104 = o at hrow ⊢
  simp only [Nat.add_assoc, Nat.reduceAdd]
  have hword (w d : ℕ) (hw : 8 ∣ w) (hd : d + w / 8 ≤ 104) {x : BitVec w} :
      wordAt eArgs w b (o + d) = .ok x ↔ toLe x = b.extract (o + d) (o + (d + w / 8)) := by
    rw [← Nat.add_assoc]
    exact wordAt_ok_iff hsmall hw (by omega)
  have hhash {a : Bytes32} : arrayAt eArgs 32 b (o + 72) = .ok a ↔
      a.val = b.extract (o + 72) (o + 104) := arrayAt_ok_iff hsmall (by omega)
  have hclaimable := hword 128 0 (by decide) (by decide) (x := m.claimable)
  have hpaid := hword 128 16 (by decide) (by decide) (x := m.paid)
  have hpending := hword 128 32 (by decide) (by decide) (x := m.pending)
  have hnonce := hword 64 48 (by decide) (by decide) (x := m.nonce)
  have hafter := hword 64 56 (by decide) (by decide) (x := m.afterLt)
  have hlast := hword 64 64 (by decide) (by decide) (x := m.lastCallbackLt)
  constructor
  · rintro ⟨_, h1, _, h2, _, h3, _, h4, _, h5, _, h6, _, h7, rfl⟩
    exact ⟨hclaimable.mp h1, hpaid.mp h2, hpending.mp h3, hnonce.mp h4, hafter.mp h5,
      hlast.mp h6, hhash.mp h7⟩
  · rintro ⟨h1, h2, h3, h4, h5, h6, h7⟩
    exact ⟨m.claimable, hclaimable.mpr h1, m.paid, hpaid.mpr h2, m.pending, hpending.mpr h3,
      m.nonce, hnonce.mpr h4, m.afterLt, hafter.mpr h5, m.lastCallbackLt, hlast.mpr h6,
      m.lastCallbackHash, hhash.mpr h7, rfl⟩

/-- A stored proposal is decoded exactly when it is the encoding of the proposal; the reserved
bytes have been tested before. -/
theorem decodeProposal_ok_iff {b : Bytes} (hlen : b.length = stateBytes)
    (hpad : b.extract 1858 1864 = (zeros 6).val) (hpad' : b.extract 1892 1896 = (zeros 4).val)
    {p : Proposal} : decodeProposal b = .ok p ↔ encodeProposal p = b.extract 1848 1896 := by
  have hsmall : b.length < 2 ^ 32 := by rw [hlen]; decide
  have hrow : 1848 + 48 ≤ b.length := by rw [hlen]; decide
  have hparts := flatten_eq_extract_iff (lengths_encodeProposal p) hrow
  simp only [splitParts, List.cons.injEq, and_true, List.sum_cons, List.sum_nil,
    Nat.reduceAdd] at hparts
  have hone (d : ℕ) (hd : d < stateBytes) : b.extract d (d + 1) = [b.getD d 0] :=
    extract_one (by rw [hlen]; exact hd)
  rw [hone 1856 (by decide), hone 1857 (by decide), List.cons.injEq, List.cons.injEq] at hparts
  have hword (w d : ℕ) (hw : 8 ∣ w) (hd : d + w / 8 ≤ stateBytes) {x : BitVec w} :
      wordAt eArgs w b d = .ok x ↔ toLe x = b.extract d (d + w / 8) :=
    wordAt_ok_iff hsmall hw (by rw [hlen]; exact hd)
  simp only [decodeProposal, bind_ok_iff, pure_ok_iff, encodeProposal, hparts, hpad, hpad',
    and_true, true_and]
  have hnonce := hword 64 1848 (by decide) (by decide) (x := p.nonce)
  have hvalue := hword 128 1864 (by decide) (by decide) (x := p.value)
  have hcreated := hword 32 1880 (by decide) (by decide) (x := p.created)
  have hready := hword 32 1884 (by decide) (by decide) (x := p.ready)
  have hexpires := hword 32 1888 (by decide) (by decide) (x := p.expires)
  constructor
  · rintro ⟨_, h1, _, h2, _, h3, _, h4, _, h5, rfl⟩
    exact ⟨hnonce.mp h1, rfl, rfl, hvalue.mp h2, hcreated.mp h3, hready.mp h4, hexpires.mp h5⟩
  · rintro ⟨h1, haction, hvotes, h2, h3, h4, h5⟩
    exact ⟨p.nonce, hnonce.mpr h1, p.value, hvalue.mpr h2, p.created, hcreated.mpr h3, p.ready,
      hready.mpr h4, p.expires, hexpires.mpr h5, by rw [← haction, ← hvotes]⟩

omit [Target] in
/-- The reserved bytes of an encoded proposal are zero. -/
theorem padding_of_encodeProposal {b : Bytes} (hlen : b.length = stateBytes) {p : Proposal}
    (h : encodeProposal p = b.extract 1848 1896) :
    b.extract 1858 1864 = (zeros 6).val ∧ b.extract 1892 1896 = (zeros 4).val := by
  have hrow : 1848 + 48 ≤ b.length := by rw [hlen]; decide
  have hparts := (flatten_eq_extract_iff (lengths_encodeProposal p) hrow).mp h
  simp only [splitParts, List.cons.injEq, and_true, Nat.reduceAdd] at hparts
  exact ⟨hparts.2.2.2.1.symm, hparts.2.2.2.2.2.2.2.2.symm⟩

omit [Target] in
/-- A word is the encoding of a state exactly when each part stands at its offset. -/
theorem encode_eq_iff {b : Bytes} (hlen : b.length = stateBytes) :
    s.encode = b ↔
      { s.config with initialFuel := s.fuelLimit }.encode = b.extract 0 1792 ∧
        toLe s.received = b.extract 1792 1808 ∧ toLe s.paid = b.extract 1808 1824 ∧
        toLe s.claimNonce = b.extract 1824 1832 ∧ toLe s.proposalNonce = b.extract 1832 1840 ∧
        (if s.paused then 1 else 0) = b.getD 1840 0 ∧ (zeros 7).val = b.extract 1841 1848 ∧
        encodeProposal s.proposal = b.extract 1848 1896 ∧
        ∀ i : Fin maxMembers,
          encodeMember (s.members i) = b.extract (1896 + i * 104) (1896 + i * 104 + 104) := by
  have hmembers : (List.ofFn fun i => encodeMember (s.members i)).flatten = b.extract 1896 3560 ↔
      ∀ i : Fin maxMembers,
        encodeMember (s.members i) = b.extract (1896 + i * 104) (1896 + i * 104 + 104) :=
    flatten_rows_iff (fun i => length_encodeMember (s.members i)) (by rw [hlen]; decide)
  have hpaused : b.extract 1840 1841 = [b.getD 1840 0] := extract_one (by rw [hlen]; decide)
  rw [encode, flatten_eq_iff (lengths_encode s) hlen]
  simp only [splitParts, List.cons.injEq, and_true, Nat.reduceAdd, hpaused, hmembers]

/-- **Decoding a state.** The initial fuel of the decoded configuration is the fuel limit. -/
theorem decode_ok_iff {b : Bytes} : decode b = .ok s ↔
    s.encode = b ∧ s.Valid ∧ s.config.initialFuel = s.fuelLimit := by
  by_cases hlen : b.length = stateBytes
  · have hsmall : b.length < 2 ^ 32 := by rw [hlen]; decide
    have hword (w d : ℕ) (hw : 8 ∣ w) (hd : d + w / 8 ≤ stateBytes) {x : BitVec w} :
        wordAt eArgs w b d = .ok x ↔ toLe x = b.extract d (d + w / 8) :=
      wordAt_ok_iff hsmall hw (by rw [hlen]; exact hd)
    have hreceived (x : U128) := hword 128 1792 (by decide) (by decide) (x := x)
    have hpaid (x : U128) := hword 128 1808 (by decide) (by decide) (x := x)
    have hclaim (x : U64) := hword 64 1824 (by decide) (by decide) (x := x)
    have hprop (x : U64) := hword 64 1832 (by decide) (by decide) (x := x)
    simp only [decode, hlen, ne_eq, not_true_eq_false, false_or, bind_ok_iff, failIf_ok_iff,
      mapError_ok_iff, pure_ok_iff, exists_const, not_or, not_not, tabulateM_ok_iff,
      Config.decode_ok_iff, decodeMember_ok_iff hlen, hreceived, hpaid, hclaim, hprop,
      validate_ok_iff, encode_eq_iff hlen]
    constructor
    · rintro ⟨⟨hpad7, hflag, hpad6, hpad4⟩, config, ⟨hconfig, -⟩, members, hmembers, received,
        hreceived, paid, hpaid, claimNonce, hclaim, proposalNonce, hprop, proposal, hproposal,
        hvalid, rfl⟩
      rw [decodeProposal_ok_iff hlen hpad6 hpad4] at hproposal
      exact ⟨⟨hconfig, hreceived, hpaid, hclaim, hprop, flag_eq_iff.mpr ⟨hflag, rfl⟩, hpad7.symm,
        hproposal, hmembers⟩, hvalid, rfl⟩
    · rintro ⟨⟨hconfig, hreceived, hpaid, hclaim, hprop, hpaused, hpad7, hproposal, hmembers⟩,
        hvalid, hfuel⟩
      obtain ⟨hpad6, hpad4⟩ := padding_of_encodeProposal hlen hproposal
      obtain ⟨hflag, hpaused⟩ := flag_eq_iff.mp hpaused
      rw [← decodeProposal_ok_iff hlen hpad6 hpad4] at hproposal
      rw [← hfuel] at hconfig
      refine ⟨⟨hpad7.symm, hflag, hpad6, hpad4⟩, s.config, ⟨hconfig, hvalid.config⟩, s.members,
        hmembers, s.received, hreceived, s.paid, hpaid, s.claimNonce, hclaim, s.proposalNonce,
        hprop, s.proposal, hproposal, ?_⟩
      rw [hpaused, hfuel]
      exact ⟨hvalid, rfl⟩
  · have hno : s.encode ≠ b := fun h => hlen (h ▸ length_encode s)
    simp only [decode, hlen, ne_eq, not_false_eq_true, true_or, bind_ok_iff, failIf_ok_iff,
      not_true_eq_false, false_and, exists_false, hno]

end

end State

end AvmSdk.Hub
