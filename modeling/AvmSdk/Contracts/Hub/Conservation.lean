import AvmSdk.Contracts.Hub.Deployment

/-!
# Conservation of the principal

What a vault holds is what came in less what went out, over any calls.

* `Step.keeps_books`: the principal of one step.
* `vault_conserves`: in every state that a deployed vault can reach, the accounts of each member add
  up to its entitlement, the rounding remainder is below the number of members, and the holdings
  are the flow of the run.
-/

namespace AvmSdk.Hub

open Wire Sdk Contracts Shares

section

variable [Target] {s t : State} {c : Call} {o : Option Transfer}

omit [Target] in
/-- Nothing is on its way in a fresh ledger. -/
theorem heldAmount_new (config : Config) : (State.new config).heldAmount = 0 := by
  have hreceived : (State.new config).received.toNat = 0 := rfl
  unfold State.heldAmount
  rw [hreceived, Nat.zero_sub, Nat.zero_sub]

omit [Target] in
/-- The principal that a payment carries. -/
theorem carried_payment {i : Fin maxMembers} {nonce : U64} {amount : U128} :
    carried principalCurrencyId (some (payment s i nonce amount)) = amount.toNat := by
  simp [carried, payment]

/-- **The books of a step.** -/
theorem Step.keeps_books (h : s.Stored) (hc : Performs State.encode Step s c t o) :
    t.heldAmount + carried principalCurrencyId o =
      s.heldAmount + gained Ids.deposit principalCurrencyId c := by
  have hs := h.valid.heldAmount_add
  have ht := (hc.step.stored h).valid.heldAmount_add
  have hattached := attached_principal hc.wellFormed
  cases hc.step with
  | topup ask => rw [gained_of_asks hc.accepted ask, if_neg (by decide)]; rfl
  | status ask => rw [gained_of_asks hc.accepted ask, if_neg (by decide)]; rfl
  | propose ask => rw [gained_of_asks hc.accepted ask, if_neg (by decide)]; rfl
  | vote ask => rw [gained_of_asks hc.accepted ask, if_neg (by decide)]; rfl
  | execute ask => rw [gained_of_asks hc.accepted ask, if_neg (by decide)]; rfl
  | @deposit _ next ask ok =>
      rw [gained_of_asks hc.accepted ask, if_pos rfl, hattached]
      have hnext := ok.next_eq
      have hreceived : (s.deposited next).received = next := rfl
      have hpaid : (s.deposited next).paid = s.paid := rfl
      have hnone : carried principalCurrencyId none = 0 := rfl
      rw [hreceived, hpaid, State.pendingAmount_deposited] at ht
      omega
  | @claim _ i nonce ask free ok =>
      rw [gained_of_asks hc.accepted ask, if_neg (by decide), carried_payment]
      have hpending : (s.locked i nonce c.input.context.blockLt).pendingAmount +
          (s.members i).pending.toNat = s.pendingAmount + (s.members i).claimable.toNat :=
        State.pendingAmount_withMember
      have hreceived : (s.locked i nonce c.input.context.blockLt).received = s.received := rfl
      have hpaid : (s.locked i nonce c.input.context.blockLt).paid = s.paid := rfl
      rw [ok.idle] at hpending
      rw [hreceived, hpaid] at ht
      have hzero : (0 : U128).toNat = 0 := rfl
      omega
  | @receipt _ message header i ret ok arrived =>
      rw [gained_of_returns hc.accepted ret, if_pos arrived.success]
      have hpending : (s.settled i message.createdLt header.causeMsgHash).pendingAmount +
          (s.members i).pending.toNat = s.pendingAmount + (0 : U128).toNat :=
        State.pendingAmount_withMember
      have hreceived : (s.settled i message.createdLt header.causeMsgHash).received = s.received :=
        rfl
      have hpaid : (s.settled i message.createdLt header.causeMsgHash).paid.toNat =
          s.paid.toNat + (s.members i).pending.toNat :=
        BitVec.toNat_add_of_lt (h.valid.total_add_lt i)
      rw [hreceived, hpaid] at ht
      have hzero : (0 : U128).toNat = 0 := rfl
      have hnone : carried principalCurrencyId none = 0 := rfl
      omega
  | @bounce _ message header i ret ok returned =>
      rw [gained_of_returns hc.accepted ret, if_neg returned.failure, hattached, ret.message_eq]
      have hpending : (s.released i message.createdLt header.causeMsgHash).pendingAmount +
          (s.members i).pending.toNat = s.pendingAmount + (0 : U128).toNat :=
        State.pendingAmount_withMember
      have hreceived : (s.released i message.createdLt header.causeMsgHash).received = s.received :=
        rfl
      have hpaid : (s.released i message.createdLt header.causeMsgHash).paid = s.paid := rfl
      have hamount : (principal (CanonicalMessage.internal message).extra).toNat =
          (s.members i).pending.toNat := congrArg BitVec.toNat returned.amount
      rw [hreceived, hpaid] at ht
      have hzero : (0 : U128).toNat = 0 := rfl
      have hnone : carried principalCurrencyId none = 0 := rfl
      omega

omit [Target] in
/-- The accounts of every place add up to its entitlement. -/
theorem State.Valid.balance (h : s.Valid) (i : Fin maxMembers) :
    (s.members i).paid.toNat + (s.members i).claimable.toNat + (s.members i).pending.toNat =
      s.entitled i := by
  by_cases hi : i.val < s.config.count.toNat
  · exact (h.members i hi).balance
  · have hle := Nat.not_lt.mp hi
    rw [State.entitled_idle h.config hle, h.idle i hle]
    rfl

/-- **Conservation**: what the state of a vault says after some calls. -/
structure Conserves (calls : List Call) (s : State) : Prop where
  /-- The account of a member adds up to its part of what was received. -/
  accounts : ∀ i, (s.members i).paid.toNat + (s.members i).claimable.toNat +
    (s.members i).pending.toNat =
      s.received.toNat * (s.config.members i).weight.toNat / 10000
  /-- What was paid is the sum over the members. -/
  paid : s.paid.toNat = ∑ i, (s.members i).paid.toNat
  /-- The parts are not more than what was received. -/
  parts_le : ∑ i, s.received.toNat * (s.config.members i).weight.toNat / 10000 ≤ s.received.toNat
  /-- What is left over is less than one unit for each member. -/
  dust_lt : s.received.toNat - ∑ i, s.received.toNat * (s.config.members i).weight.toNat / 10000 <
    s.config.count.toNat
  /-- The vault holds what the deposits and the returned payments brought, less what was sent. -/
  held : ∃ held, s.held = .ok held ∧
    held.toNat + (calls.map (Call.sent principalCurrencyId)).sum =
      ((calls.filter (Call.AcceptedMethod Ids.deposit ·)).map
        (Call.attached principalCurrencyId)).sum +
      ((calls.filter (Call.AcceptedBounce ·)).map (Call.attached principalCurrencyId)).sum

/-- **A vault conserves its principal**, whatever calls it gets. -/
theorem vault_conserves {start : MessageInput} {calls : List Call} {b : Bytes}
    (hrun : revenueVault.Runs start calls b) :
    ∃ s, State.decode b = .ok s ∧ Conserves calls s := by
  obtain ⟨s, hruns, hstored, rfl⟩ := revenueVault_implements.runs hrun
  have hvalid := hstored.valid
  have hbooks := runs_balance Ids.deposit principalCurrencyId State.heldAmount
    revenueVault_implements hruns
    (fun s _ hdeployed =>
      (congrArg State.heldAmount hdeployed.state_eq).trans (heldAmount_new s.config))
    fun _ _ _ _ hs hc => Step.keeps_books hs hc
  obtain ⟨held, hheld, hvalue⟩ := hvalid.exists_held
  have hle := State.sum_entitled_le hvalid.config
  have hlt := State.lt_sum_entitled_add hvalid.config
  refine ⟨s, hstored.decode_encode, hvalid.balance, hvalid.paid.symm, hle, ?_, held, hheld, ?_⟩
  · show s.received.toNat - ∑ i, s.entitled i < s.config.count.toNat
    omega
  · rw [hvalue]
    exact hbooks

end

/-- A vault after a deposit and a claim. -/
theorem vault_conserves_sample :
    letI := Target.wasm32
    ∃ s, State.decode sampleClaimed.encode = .ok s ∧ Conserves sampleCalls s := by
  let _ := Target.wasm32
  exact vault_conserves sampleRun

end AvmSdk.Hub
