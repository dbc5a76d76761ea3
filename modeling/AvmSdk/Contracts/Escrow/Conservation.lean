import AvmSdk.Contracts.Escrow.Deployment

/-!
# Conservation

An escrow accounts for every unit of its principal, whatever calls it gets: what came in is paid, was
refunded, is on its way, or belongs to a milestone that was not settled yet.

* `State.heldAmount`: what is neither paid nor refunded nor on its way. `Step.keeps_books`: what a
  single call does to it.
* `Terms`, `terms_of_runs`: the configuration of a run is that of its deployment.
* `principal_accounted`: what the state says after any calls.
-/

namespace AvmSdk.Escrow

open Wire Sdk Contracts

/-! ## What is held -/

namespace State

/-- What was funded and is neither settled nor on its way. -/
def heldAmount (s : State) : ℕ :=
  s.funded.toNat - s.paid.toNat - s.refunded.toNat - s.pending.amount.toNat

variable {s : State} {i : Fin maxMilestones}

/-- What is pending is not settled. -/
theorem Valid.pending_le (h : s.Valid) :
    s.paid.toNat + s.refunded.toNat + s.pending.amount.toNat ≤ s.funded.toNat := by
  have hcovered := h.covered
  have htotal := h.sum_eq
  rcases h.pending.kind_cases with hkind | hkind | hkind
  · have hnone : s.pending.amount.toNat = 0 := by
      rw [h.pending.idle hkind]
      rfl
    omega
  · have hfunded := congrArg BitVec.toNat
      (h.funded_eq (h.attempt_eq (by rw [hkind]; decide)).2)
    obtain ⟨-, hphase, hamount⟩ := h.pending.payment hkind
    have hle := le_approvedSum hphase
    rw [← hamount] at hle
    omega
  · have hfunded := congrArg BitVec.toNat
      (h.funded_eq (h.attempt_eq (by rw [hkind]; decide)).2)
    have hamount := (h.pending.refund hkind).2.2
    omega

/-- **What was funded** is settled, on its way, or held. -/
theorem Valid.funded_split (h : s.Valid) :
    s.funded.toNat =
      s.paid.toNat + s.refunded.toNat + s.pending.amount.toNat + s.heldAmount := by
  have hle := h.pending_le
  unfold heldAmount
  omega

/-- While nothing is pending, nothing is on its way. -/
theorem Valid.pending_amount (h : s.Valid) (hidle : s.pending.kind = 0) :
    s.pending.amount.toNat = 0 := by
  rw [h.pending.idle hidle]
  rfl

/-- A success settles what is pending. -/
theorem Valid.settled_sums (h : s.Valid) (hash : Bytes32) :
    (s.settled hash).paid.toNat + (s.settled hash).refunded.toNat =
      s.paid.toNat + s.refunded.toNat + s.pending.amount.toNat := by
  have hlt := s.funded.isLt
  have hle := h.pending_le
  unfold State.settled
  by_cases hkind : s.pending.kind = 1
  · have hpaid : (s.paid + s.pending.amount).toNat = s.paid.toNat + s.pending.amount.toNat :=
      BitVec.toNat_add_of_lt (by omega)
    rw [if_pos hkind]
    show (s.paid + s.pending.amount).toNat + s.refunded.toNat = _
    omega
  · have hrefunded : (s.refunded + s.pending.amount).toNat =
        s.refunded.toNat + s.pending.amount.toNat := BitVec.toNat_add_of_lt (by omega)
    rw [if_neg hkind]
    show s.paid.toNat + (s.refunded + s.pending.amount).toNat = _
    omega

end State

section

variable [Target] {s t : State} {c : Call} {o : Option Transfer} {start : MessageInput}
  {calls : List Call}

omit [Target] in
/-- The principal that a transfer carries. -/
theorem carried_transfer :
    carried principalCurrencyId (some s.transfer) = s.pending.amount.toNat := by
  simp [carried, State.transfer, transferOf]

/-- **The books of a step.** -/
theorem Step.keeps_books (h : s.Valid) (hc : Performs State.encode Step s c t o) :
    t.heldAmount + carried principalCurrencyId o =
      s.heldAmount + gained Ids.fund principalCurrencyId c := by
  have hs := h.funded_split
  have ht := (hc.step.valid h).funded_split
  have hnone : carried principalCurrencyId none = 0 := rfl
  have hstep := hc.step
  cases hstep with
  | status ask => rw [gained_of_asks hc.accepted ask, if_neg (by decide)]; rfl
  | topup ask => rw [gained_of_asks hc.accepted ask, if_neg (by decide)]; rfl
  | submit ask => rw [gained_of_asks hc.accepted ask, if_neg (by decide)]; rfl
  | approve ask => rw [gained_of_asks hc.accepted ask, if_neg (by decide)]; rfl
  | fund ask ok =>
      have hfresh : s.funded.toNat = 0 := by
        rw [ok.fresh]
        rfl
      have hattached : c.attached principalCurrencyId = s.config.total.toNat := by
        rw [attached_principal hc.wellFormed, ok.value]
      rw [gained_of_asks hc.accepted ask, if_pos rfl, hnone, hattached]
      have hsame : s.deposited.funded.toNat = s.config.total.toNat ∧
          s.deposited.paid = s.paid ∧ s.deposited.refunded = s.refunded ∧
          s.deposited.pending = s.pending := ⟨rfl, rfl, rfl, rfl⟩
      rw [hsame.1, hsame.2.1, hsame.2.2.1, hsame.2.2.2] at ht
      omega
  | @pay _ i ask ok =>
      have hidle := h.pending_amount ok.idle
      rw [gained_of_asks hc.accepted ask, if_neg (by decide), carried_transfer]
      have hsame : (s.dispatched 1 (BitVec.ofNat 8 i.val) (s.config.amounts i)).funded = s.funded ∧
          (s.dispatched 1 (BitVec.ofNat 8 i.val) (s.config.amounts i)).paid = s.paid ∧
          (s.dispatched 1 (BitVec.ofNat 8 i.val) (s.config.amounts i)).refunded = s.refunded :=
        ⟨rfl, rfl, rfl⟩
      rw [hsame.1, hsame.2.1, hsame.2.2] at ht
      omega
  | @refund _ amount ask ok =>
      have hidle := h.pending_amount ok.idle
      rw [gained_of_asks hc.accepted ask, if_neg (by decide), carried_transfer]
      have hsame : (s.dispatched 2 255 amount).funded = s.funded ∧
          (s.dispatched 2 255 amount).paid = s.paid ∧
          (s.dispatched 2 255 amount).refunded = s.refunded := ⟨rfl, rfl, rfl⟩
      rw [hsame.1, hsame.2.1, hsame.2.2] at ht
      omega
  | @receipt _ message header ret ok arrived =>
      rw [gained_of_returns hc.accepted ret, if_pos arrived.success, hnone]
      have hsums := h.settled_sums header.causeMsgHash
      have hsame : (s.settled header.causeMsgHash).funded = s.funded ∧
          (s.settled header.causeMsgHash).pending.amount.toNat = 0 := by
        unfold State.settled
        split_ifs <;> exact ⟨rfl, rfl⟩
      rw [hsame.1, hsame.2] at ht
      omega
  | @bounce _ message header ret ok returned =>
      have hattached : c.attached principalCurrencyId = s.pending.amount.toNat := by
        rw [attached_principal hc.wellFormed, ret.message_eq]
        exact congrArg BitVec.toNat returned.value
      rw [gained_of_returns hc.accepted ret, if_neg returned.failure, hnone, hattached]
      have hsame : (s.closed header.causeMsgHash).funded = s.funded ∧
          (s.closed header.causeMsgHash).paid = s.paid ∧
          (s.closed header.causeMsgHash).refunded = s.refunded ∧
          (s.closed header.causeMsgHash).pending.amount.toNat = 0 := ⟨rfl, rfl, rfl, rfl⟩
      rw [hsame.1, hsame.2.1, hsame.2.2.1, hsame.2.2.2] at ht
      omega

/-! ## Terms -/

/-- The configuration that a deployment names. -/
def Terms (start : MessageInput) (config : Config) : Prop :=
  ∃ deploy, start.deploy = .ok deploy ∧ Config.decode deploy.initData = .ok config

/-- A deployment names one configuration. -/
theorem Terms.unique {config config' : Config} (h : Terms start config)
    (h' : Terms start config') : config = config' := by
  obtain ⟨deploy, hdeploy, hconfig⟩ := h
  obtain ⟨deploy', hdeploy', hconfig'⟩ := h'
  rw [hdeploy, Except.ok.injEq] at hdeploy'
  rw [← hdeploy', hconfig, Except.ok.injEq] at hconfig'
  exact hconfig'

/-- The terms of a run are those of its deployment. -/
theorem terms_of_runs (hrun : escrowMachine.Runs start calls s) : Terms start s.config := by
  refine hrun.stateInvariant (fun s hs => hs.2.config_eq) fun s c t hs hmove => ?_
  rcases moves_cases hmove with ⟨o, hc⟩ | ⟨rfl, -⟩
  · rw [hc.step.config_eq]
    exact hs
  · exact hs

/-! ## Every run -/

/-- The amounts of the milestones in a kind of phase. -/
def State.amountWhere (s : State) (p : U8 → Prop) [DecidablePred p] : ℕ :=
  ∑ i with s.config.Active i ∧ p (s.phases i), (s.config.amounts i).toNat

omit [Target] in
/-- Only the milestones of the configuration have amounts. -/
theorem State.sumWhere_eq (hc : s.config.Valid) (p : U8 → Prop) [DecidablePred p] :
    s.sumWhere p = s.amountWhere p := by
  unfold State.sumWhere State.amountWhere
  rw [Finset.sum_filter]
  refine Finset.sum_congr rfl fun i _ => ?_
  by_cases hi : s.config.Active i
  · simp only [hi, true_and]
  · have hzero : (s.config.amounts i).toNat = 0 := by
      rw [hc.idle i hi]
      rfl
    simp only [hi, false_and, hzero, ite_self]

/-- **Conservation**: what the state of an escrow says after some calls. -/
structure Accounted (start : MessageInput) (calls : List Call) (s : State) : Prop where
  terms : Terms start s.config
  funded_cases : s.funded = 0 ∨ s.funded = s.config.total
  funded_eq : s.funded ≠ 0 → s.funded.toNat = s.paid.toNat + s.refunded.toNat +
    s.amountWhere fun phase => phase ≠ phasePaid ∧ phase ≠ phaseRefunded
  paid_eq : s.paid.toNat = s.amountWhere (· = phasePaid)
  refunded_eq : s.refunded.toNat = s.amountWhere (· = phaseRefunded)
  /-- What is not settled is what came in and what was returned, less what was sent. -/
  flow : s.paid.toNat + s.refunded.toNat + s.pending.amount.toNat ≤ s.funded.toNat ∧
    s.funded.toNat - s.paid.toNat - s.refunded.toNat - s.pending.amount.toNat +
        (calls.map (Call.sent principalCurrencyId)).sum =
      ((calls.filter (Call.AcceptedMethod Ids.fund ·)).map
        (Call.attached principalCurrencyId)).sum +
      ((calls.filter (Call.AcceptedBounce ·)).map (Call.attached principalCurrencyId)).sum
  /-- The subtractions of the code do not underflow. -/
  owed : s.paid ≤ s.funded ∧ s.refunded ≤ s.funded - s.paid

omit [Target] in
/-- What is neither paid nor refunded is refundable or approved. -/
theorem State.Valid.unsettled_eq (h : s.Valid) :
    s.sumWhere (fun phase => phase ≠ phasePaid ∧ phase ≠ phaseRefunded) =
      s.refundableSum + s.sumWhere (· = phaseApproved) := by
  unfold State.refundableSum State.sumWhere
  rw [← Finset.sum_add_distrib]
  refine Finset.sum_congr rfl fun i _ => ?_
  rcases State.phase_cases h i with hi | hi | hi | hi | hi <;> rw [hi] <;>
    simp [Refundable, phaseOpen, phaseSubmitted, phaseApproved, phasePaid, phaseRefunded]

/-- **An escrow conserves its principal.** -/
theorem principal_accounted {b : Bytes} (hrun : escrow.Runs start calls b) :
    ∃ s, State.decode b = .ok s ∧ Accounted start calls s := by
  obtain ⟨s, hruns, hvalid, rfl⟩ := escrow_implements.runs hrun
  have hstart (s : State) (hs : Deployed start s) : s.heldAmount = 0 := by
    rw [hs.state_eq]
    rfl
  have hbooks := runs_balance Ids.fund principalCurrencyId State.heldAmount escrow_implements hruns
    (fun s _ hdeployed => hstart s hdeployed) fun _ _ _ _ hs hc => Step.keeps_books hs hc
  refine ⟨s, hvalid.decode_encode, terms_of_runs hruns, hvalid.funded_cases, fun hfunded => ?_, ?_,
    ?_, ⟨hvalid.pending_le, hbooks⟩, ?_⟩
  · have htotal := hvalid.sum_eq
    have hunsettled := hvalid.unsettled_eq
    rw [hvalid.funded_eq hfunded, ← State.sumWhere_eq hvalid.config]
    omega
  · rw [← State.sumWhere_eq hvalid.config]
    exact hvalid.paid_eq
  · rw [← State.sumWhere_eq hvalid.config]
    exact hvalid.refunded_eq
  · have hcovered := hvalid.covered
    have hpaid : s.paid ≤ s.funded := BitVec.le_def.mpr (by omega)
    refine ⟨hpaid, ?_⟩
    rw [BitVec.le_def, BitVec.toNat_sub_of_le hpaid]
    omega

end

/-- An escrow with a payment under way. -/
theorem principal_accounted_sample :
    letI := Target.wasm32
    ∃ s, State.decode samplePaid.encode = .ok s ∧ Accounted sampleStart sampleCalls s := by
  let _ := Target.wasm32
  exact principal_accounted sampleRun

end AvmSdk.Escrow
