import AvmSdk.Contracts.Hub.Deployment

/-!
# Deposits

A deposit of the vault, with the state that it leaves behind when it fails, and what the accounts of
the members are after many deposits.

* `State.depositIn`: the deposit as it changes a state in place.
* `Mixed`: deposits, claims and callbacks in any order. `Mixed.accounted`: what a member has been
  paid, is being paid or can claim is its share of all that was deposited.
* `deposit_atomic_and_additive`: both together.
-/

namespace AvmSdk.Hub

open Wire Sdk Contracts Shares

/-- The account of a member in the three amounts that it consists of: paid, on its way, and to claim. -/
def MemberState.balance (m : MemberState) : ℕ :=
  m.paid.toNat + m.pending.toNat + m.claimable.toNat

section

variable [Target]

/-- What `deposit` computes in front of its writes. Source: `State::deposit`, `let next`,
`let mut members` -/
def State.nextDeposit (self : State) (amount : U128) :
    HubResult (U128 × (Fin maxMembers → MemberState)) := do
  failIf (amount = 0) eValue
  let next ← okOr (wordCheckedAdd self.received amount) eOverflow
  let members ← tabulateM maxMembers (self.creditMember next)
  pure (next, members)

/-- `deposit` with the state that it leaves behind: the two fields are written before the state is
checked. Source: `State::deposit` -/
def State.depositIn (self : State) (amount : U128) : HubResult Unit × State :=
  match self.nextDeposit amount with
  | .error e => (.error e, self)
  | .ok (next, members) =>
      let s := { self with received := next, members := members }
      (s.validate, s)

/-- **Deposits, claims and callbacks** in any order, with the sum of the deposits. -/
inductive Mixed (s : State) : ℕ → State → Prop
  | start : Mixed s 0 s
  | deposit {n : ℕ} {t u : State} {amount : U128} (before : Mixed s n t)
      (done : t.depositIn amount = (.ok (), u)) : Mixed s (n + amount.toNat) u
  | claim {n : ℕ} {t : State} {x : MessageInput} {actor : Bytes32} {i : Fin maxMembers}
      {nonce : U64} (before : Mixed s n t) (ok : ClaimOk x actor t i nonce) :
      Mixed s n (t.locked i nonce x.context.blockLt)
  | receipt {n : ℕ} {t : State} {x : MessageInput} {source : AccountAddress}
      {message : InternalMessage} {h : CallbackHeader} {i : Fin maxMembers} (before : Mixed s n t)
      (ok : CallbackOk x t source message h i) (arrived : ReceiptOk t message h i) :
      Mixed s n (t.settled i message.createdLt h.causeMsgHash)
  | bounce {n : ℕ} {t : State} {x : MessageInput} {source : AccountAddress}
      {message : InternalMessage} {h : CallbackHeader} {i : Fin maxMembers} (before : Mixed s n t)
      (ok : CallbackOk x t source message h i) (returned : BounceOk t message h i) :
      Mixed s n (t.released i message.createdLt h.causeMsgHash)

variable {s t u : State} {amount next : U128} {n : ℕ} {i : Fin maxMembers}

/-! ## One deposit -/

/-- The deposit in place and the deposit as a result are one. -/
theorem State.deposit_eq_depositIn (s : State) (amount : U128) :
    s.deposit amount = (s.depositIn amount).1.map fun _ => (s.depositIn amount).2 := by
  have hsplit : s.deposit amount = s.nextDeposit amount >>= fun p =>
      ({ s with received := p.1, members := p.2 } : State).validate >>= fun _ =>
        pure { s with received := p.1, members := p.2 } := by
    unfold State.deposit State.nextDeposit
    simp only [bind_assoc, pure_bind]
  unfold State.depositIn
  rw [hsplit]
  cases s.nextDeposit amount with
  | error e => rfl
  | ok p =>
      rw [ok_bind]
      dsimp only
      cases State.validate { s with received := p.1, members := p.2 } <;> rfl

/-- **A deposit on a valid state** succeeds or leaves the state: the check at its end never fails. -/
theorem State.Valid.depositIn_cases (h : s.Valid) (amount : U128) :
    (∃ next : U128, amount ≠ 0 ∧ s.received.toNat + amount.toNat = next.toNat ∧
      s.depositIn amount = (.ok (), s.deposited next)) ∨
    ((amount = 0 ∨ 2 ^ 128 ≤ s.received.toNat + amount.toNat) ∧
      ∃ e, s.depositIn amount = (.error e, s)) := by
  by_cases hzero : amount = 0
  · refine .inr ⟨.inl hzero, eValue, ?_⟩
    unfold State.depositIn State.nextDeposit
    rw [failIf, if_pos hzero]
    rfl
  · have hguard : failIf (amount = 0) eValue = .ok () := failIf_ok_iff.mpr hzero
    cases hnext : wordCheckedAdd s.received amount with
    | none =>
        refine .inr ⟨.inr ?_, eOverflow, ?_⟩
        · exact le_of_wordCheckedAdd_none hnext
        · unfold State.depositIn State.nextDeposit
          rw [hguard, hnext]
          rfl
    | some next =>
        have hsum := wordCheckedAdd_eq_some.mp hnext
        have hle : s.received.toNat ≤ next.toNat := by omega
        have hmembers : tabulateM maxMembers (s.creditMember next) =
            .ok (s.deposited next).members := tabulateM_ok_iff.mpr (h.creditMember_eq hle)
        have hvalidate : (s.deposited next).validate = .ok () :=
          State.validate_ok_iff.mpr (h.deposited hle)
        refine .inl ⟨next, hzero, hsum, ?_⟩
        unfold State.depositIn State.nextDeposit
        rw [hguard, hnext, ok_bind, okOr_some, ok_bind, hmembers]
        show (State.validate (s.deposited next), s.deposited next) = _
        rw [hvalidate]

/-- A deposit in place that succeeds. -/
theorem State.Valid.depositIn_ok_iff (h : s.Valid) :
    s.depositIn amount = (.ok (), t) ↔ amount ≠ 0 ∧
      ∃ next : U128, s.received.toNat + amount.toNat = next.toNat ∧ s.deposited next = t := by
  rcases h.depositIn_cases amount with ⟨next, hzero, hsum, heq⟩ | ⟨hno, e, heq⟩
  · rw [heq, Prod.mk.injEq, and_iff_right rfl]
    constructor
    · rintro rfl
      exact ⟨hzero, next, hsum, rfl⟩
    · rintro ⟨-, next', hsum', rfl⟩
      rw [BitVec.eq_of_toNat_eq (hsum.symm.trans hsum')]
  · rw [heq]
    constructor
    · intro hok
      cases hok
    · rintro ⟨hzero, next, hsum, -⟩
      have hlt := next.isLt
      rcases hno with hno | hno
      · exact absurd hno hzero
      · omega

omit [Target] in
/-- What a deposit does to the account of a member. -/
theorem State.Valid.credited (h : s.Valid) (hnext : s.received.toNat ≤ next.toNat)
    (hi : i.val < s.config.count.toNat) : ∃ before after : U128,
      entitlement s.received (s.config.members i).weight = .ok before ∧
      entitlement next (s.config.members i).weight = .ok after ∧
      ∃ claimable : U128, (s.deposited next).members i = { s.members i with claimable := claimable } ∧
        claimable.toNat = (s.members i).claimable.toNat + (after.toNat - before.toNat) ∧
        before ≤ after := by
  have hweight := h.config.weight_ne_zero i hi
  have hweight' := h.config.weight_le i
  obtain ⟨before, hbefore⟩ := exists_entitlement s.received hweight hweight'
  obtain ⟨after, hafter⟩ := exists_entitlement next hweight hweight'
  have hbefore' := (entitlement_ok_iff hweight hweight').mp hbefore
  have hafter' := (entitlement_ok_iff hweight hweight').mp hafter
  have hmono : share 10000 s.received.toNat (s.config.members i).weight.toNat ≤
      share 10000 next.toNat (s.config.members i).weight.toNat := share_mono hnext
  have hcredited := h.toNat_credited hnext hi
  unfold State.entitled at hcredited
  refine ⟨before, after, hbefore, hafter, _, if_pos hi, by omega, BitVec.le_def.mpr (by omega)⟩

/-! ## Many deposits -/

/-- **In any order** of deposits, claims and callbacks the state stays valid, and received what was
deposited. -/
theorem Mixed.valid (hmixed : Mixed s n t) (h : s.Valid) :
    t.Valid ∧ t.config = s.config ∧ t.received.toNat = s.received.toNat + n := by
  induction hmixed with
  | start => exact ⟨h, rfl, rfl⟩
  | deposit before done ih =>
      obtain ⟨ht, hconfig, hreceived⟩ := ih
      obtain ⟨-, next, hsum, rfl⟩ := ht.depositIn_ok_iff.mp done
      refine ⟨ht.deposited (by omega), hconfig, ?_⟩
      show next.toNat = _
      omega
  | claim before ok ih =>
      obtain ⟨ht, hconfig, hreceived⟩ := ih
      exact ⟨ht.locked ok.index_lt ok.idle ok.some ok.nonce_eq _, hconfig, hreceived⟩
  | receipt before ok arrived ih =>
      obtain ⟨ht, hconfig, hreceived⟩ := ih
      exact ⟨ht.settled ok.index_lt ok.createdLt_ne_zero ok.hash_ne_zero, hconfig, hreceived⟩
  | bounce before ok returned ih =>
      obtain ⟨ht, hconfig, hreceived⟩ := ih
      exact ⟨ht.released ok.index_lt ok.createdLt_ne_zero ok.hash_ne_zero, hconfig, hreceived⟩

omit [Target] in
/-- The balance of a member is its entitlement. -/
theorem State.Valid.balance_eq (h : s.Valid) (i : Fin maxMembers) :
    (s.members i).balance = s.entitled i := by
  unfold MemberState.balance
  by_cases hi : i.val < s.config.count.toNat
  · have hbalance := (h.members i hi).balance
    omega
  · have hle := Nat.not_lt.mp hi
    rw [entitled_idle h.config hle, h.idle i hle]
    rfl

/-- **The balance of a member** is its share of all that was received and deposited. -/
theorem Mixed.accounted (hmixed : Mixed s n t) (h : s.Valid) (i : Fin maxMembers) :
    (t.members i).balance =
      share 10000 (s.received.toNat + n) (s.config.members i).weight.toNat := by
  obtain ⟨ht, hconfig, hreceived⟩ := hmixed.valid h
  rw [ht.balance_eq]
  unfold State.entitled
  rw [hconfig, hreceived]

/-- **Deposits are atomic, and how they are split does not matter.** On a state that passes the check
a deposit succeeds exactly if the amount is positive and the sum of all receipts stays below `2^128`.
Then the new state passes the check, the receipts grow by the amount, the claimable amount of each
member grows by the difference of its two entitlements, and nothing else changes. If it fails, the
state is what it was. The balance of a member after deposits, claims and callbacks in any order
depends only on the sum of the deposits. -/
theorem deposit_atomic_and_additive (s : State) (h : s.validate = .ok ()) :
    (∀ amount : U128,
      ((s.depositIn amount).1 = .ok () ↔
        0 < amount.toNat ∧ s.received.toNat + amount.toNat < 2 ^ 128) ∧
      (∀ t, s.depositIn amount = (.ok (), t) → t.validate = .ok () ∧
        t.received.toNat = s.received.toNat + amount.toNat ∧
        (∀ i : Fin maxMembers, i.val < s.config.count.toNat → ∃ before after claimable : U128,
          entitlement s.received (s.config.members i).weight = .ok before ∧
          entitlement t.received (s.config.members i).weight = .ok after ∧
          claimable.toNat = (s.members i).claimable.toNat + (after.toNat - before.toNat) ∧
          before ≤ after ∧ t.members i = { s.members i with claimable := claimable }) ∧
        (∀ i : Fin maxMembers, s.config.count.toNat ≤ i.val → t.members i = s.members i) ∧
        t = { s with received := t.received, members := t.members }) ∧
      ∀ t e, s.depositIn amount = (.error e, t) → t = s) ∧
    ∀ n t u, Mixed s n t → Mixed s n u →
      ∀ i, (t.members i).balance = (u.members i).balance := by
  have hv : s.Valid := State.validate_ok_iff.mp h
  refine ⟨fun amount => ⟨?_, fun t ht => ?_, fun t e ht => ?_⟩, fun n t u ht hu i => ?_⟩
  · have hpos : amount ≠ 0 ↔ 0 < amount.toNat := by
      rw [Nat.pos_iff_ne_zero, ne_eq, ne_eq, ← BitVec.toNat_inj]
      rfl
    rw [← hpos]
    rcases hv.depositIn_cases amount with ⟨next, hzero, hsum, heq⟩ | ⟨hno, e, heq⟩
    · rw [heq]
      exact ⟨fun _ => ⟨hzero, hsum ▸ next.isLt⟩, fun _ => rfl⟩
    · rw [heq]
      constructor
      · intro hok
        cases hok
      · rintro ⟨hzero, hlt⟩
        rcases hno with hno | hno
        · exact absurd hno hzero
        · exact absurd hlt (Nat.not_lt.mpr hno)
  · obtain ⟨hzero, next, hsum, rfl⟩ := hv.depositIn_ok_iff.mp ht
    have hle : s.received.toNat ≤ next.toNat := by omega
    refine ⟨State.validate_ok_iff.mpr (hv.deposited hle), hsum.symm, fun i hi => ?_, fun i hi => ?_,
      rfl⟩
    · obtain ⟨before, after, hbefore, hafter, claimable, hm, hclaimable, hmono⟩ :=
        hv.credited hle hi
      exact ⟨before, after, claimable, hbefore, hafter, hclaimable, hmono, hm⟩
    · exact if_neg (Nat.not_lt.mpr hi)
  · rcases hv.depositIn_cases amount with ⟨next, -, -, heq⟩ | ⟨-, e', heq⟩
    · rw [heq] at ht
      cases ht
    · rw [heq] at ht
      cases ht
      rfl
  · rw [ht.accounted hv i, hu.accounted hv i]

end

/-- A vault that was paid in two parts. -/
def sampleParts : State := ((State.new sampleConfig).deposited 400).deposited 1000

/-- A deposit and a claim, -/
theorem mixed_sampleClaimed [Target] : Mixed (State.new sampleConfig) 1000 sampleClaimed := by
  have hnew := (stored_new sampleConfig_deployable.valid).valid
  have hdone : (State.new sampleConfig).depositIn 1000 = (.ok (), sampleFunded) :=
    hnew.depositIn_ok_iff.mpr ⟨by decide, 1000, rfl, rfl⟩
  exact .claim (.deposit .start hdone) sampleClaim_ok

/-- and two deposits. -/
theorem mixed_sampleParts [Target] : Mixed (State.new sampleConfig) 1000 sampleParts := by
  have hnew := (stored_new sampleConfig_deployable.valid).valid
  have hfirst : (State.new sampleConfig).depositIn 400 =
      (.ok (), (State.new sampleConfig).deposited 400) :=
    hnew.depositIn_ok_iff.mpr ⟨by decide, 400, rfl, rfl⟩
  have hpart : ((State.new sampleConfig).deposited 400).Valid := hnew.deposited (Nat.zero_le _)
  have hsecond : ((State.new sampleConfig).deposited 400).depositIn 600 = (.ok (), sampleParts) :=
    hpart.depositIn_ok_iff.mpr ⟨by decide, 1000, rfl, rfl⟩
  exact .deposit (.deposit .start hfirst) hsecond

/-- A new vault takes a deposit, and it does not matter whether 1000 come in two parts or at once,
with a claim behind them. -/
theorem deposit_atomic_and_additive_sample :
    letI := Target.wasm32
    (State.new sampleConfig).validate = .ok () ∧
      ((State.new sampleConfig).depositIn 10007).1 = .ok () ∧
      ∀ i, (sampleClaimed.members i).balance = (sampleParts.members i).balance := by
  let _ := Target.wasm32
  have hvalid : (State.new sampleConfig).validate = .ok () :=
    State.validate_ok_iff.mpr (stored_new sampleConfig_deployable.valid).valid
  have hamount : 0 < (10007 : U128).toNat ∧
      (State.new sampleConfig).received.toNat + (10007 : U128).toNat < 2 ^ 128 := by
    refine ⟨by decide, ?_⟩
    show (0 : U128).toNat + (10007 : U128).toNat < 2 ^ 128
    decide
  obtain ⟨hdeposits, hbalances⟩ := deposit_atomic_and_additive _ hvalid
  exact ⟨hvalid, (hdeposits 10007).1.mpr hamount,
    hbalances 1000 _ _ mixed_sampleClaimed mixed_sampleParts⟩

end AvmSdk.Hub
