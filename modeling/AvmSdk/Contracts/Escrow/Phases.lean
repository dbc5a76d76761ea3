import AvmSdk.Contracts.Escrow.Transfers

/-!
# Phases

What is approved is what was delivered last, and what is sent is what the phases allow.

* `Submits`, `LastSubmission`, `submission_of_runs`: a delivery that waits for its approval is the one
  that was handed in last.
* `Ordered`, `ordered_of_moves`: what one call of a run does to the phases, and what it sends.
* `phases_ordered`.
-/

namespace AvmSdk.Escrow

open Wire Sdk Contracts

/-! ## Bodies -/

/-- The body of a payment for a milestone. -/
def PaysFor (i : Fin maxMilestones) (body : Bytes) : Prop :=
  body.getD 4 0 = 1 ∧ body.getD 5 0 = BitVec.ofNat 8 i.val

/-- The body of a refund. -/
def PaysBack (body : Bytes) : Prop := body.getD 4 0 = 2

/-- The call takes the callback of a payment for a milestone that arrived. -/
def SettlesPayment (i : Fin maxMilestones) (c : Call) : Prop :=
  c.AcceptedReceipt ∧ PaysFor i c.input.message.body

/-- The milestone that a payment names. -/
theorem paysFor_paymentBody {i : Fin maxMilestones} {p : Pending} :
    PaysFor i (paymentBody p) ↔ p.kind = 1 ∧ p.index = BitVec.ofNat 8 i.val := Iff.rfl

/-! ## Deliveries -/

/-- The worker hands in a delivery for a milestone. -/
structure Submits (config : Config) (i : Fin maxMilestones) (hash : Bytes32) (c : Call) : Prop where
  method : c.AcceptedMethod Ids.submit
  worker : c.input.caller = .external config.worker
  body : c.input.message.body = BitVec.ofNat 8 i.val :: hash.val

/-- The last delivery that was handed in for a milestone. -/
def LastSubmission (config : Config) (calls : List Call) (i : Fin maxMilestones) (hash : Bytes32) :
    Prop :=
  ∃ pre c post, calls = pre ++ c :: post ∧ Submits config i hash c ∧
    ∀ d ∈ post, ∀ other, ¬ Submits config i other d

/-- The owner approves a delivery for a milestone, before the deadline. -/
structure Approves (config : Config) (i : Fin maxMilestones) (hash : Bytes32) (c : Call) : Prop where
  method : c.AcceptedMethod Ids.approve
  owner : c.input.caller = .external config.owner
  early : c.input.context.blockTime < config.deadline
  body : c.input.message.body = BitVec.ofNat 8 i.val :: hash.val

section

variable {config : Config} {calls : List Call} {i j : Fin maxMilestones} {hash : Bytes32} {c : Call}

/-- A call that hands in nothing leaves the last delivery. -/
theorem LastSubmission.snoc (h : LastSubmission config calls i hash)
    (hc : ∀ other, ¬ Submits config i other c) : LastSubmission config (calls ++ [c]) i hash := by
  obtain ⟨pre, d, post, rfl, hd, hpost⟩ := h
  refine ⟨pre, d, post ++ [c], by simp, hd, fun e he other => ?_⟩
  rcases List.mem_append.mp he with he | he
  · exact hpost e he other
  · rw [List.mem_singleton.mp he]
    exact hc other

/-- A submission is the last one once it has been made. -/
theorem lastSubmission_snoc (hc : Submits config i hash c) :
    LastSubmission config (calls ++ [c]) i hash :=
  ⟨calls, c, [], rfl, hc, fun _ hno => absurd hno List.not_mem_nil⟩

/-- A body names one milestone. -/
theorem index_inj (h : BitVec.ofNat 8 i.val = BitVec.ofNat 8 j.val) : i = j := by
  rw [← milestone_index i, h, milestone_index]

end

section

variable [Target] {x : MessageInput} {s t u : State} {o : Option Transfer} {c : Call}
  {start : MessageInput} {calls pre post : List Call} {i : Fin maxMilestones}

omit [Target] in
/-- An entry that an update did not set. -/
theorem of_update_eq {phases : Fin maxMilestones → U8} {j : Fin maxMilestones} {a b : U8}
    (h : Function.update phases j b i = a) (hne : b ≠ a) : i ≠ j ∧ phases i = a := by
  by_cases hij : i = j
  · subst hij
    rw [Function.update_self] at h
    exact absurd h hne
  · rw [Function.update_of_ne hij] at h
    exact ⟨hij, h⟩

omit [Target] in
/-- A settled transfer leaves the phases that it does not reach. -/
theorem phases_settled {hash : Bytes32} {a : U8} (hpaid : phasePaid ≠ a)
    (hrefunded : phaseRefunded ≠ a) (h : (s.settled hash).phases i = a) : s.phases i = a := by
  unfold State.settled at h
  split_ifs at h
  · exact (of_update_eq h hpaid).2
  · have hphases : s.refundedPhases i = a := h
    unfold State.refundedPhases at hphases
    split_ifs at hphases
    · exact absurd hphases hrefunded
    · exact hphases

/-- A delivery that waits for its approval was handed in now, or waited before. -/
theorem submitted_cases (hc : Performs State.encode Step s c t o)
    (hi : t.phases i = phaseSubmitted) :
    Submits s.config i (t.deliveryHashes i) c ∨
      (s.phases i = phaseSubmitted ∧ t.deliveryHashes i = s.deliveryHashes i ∧
        ∀ hash, ¬ Submits s.config i hash c) := by
  have hnot {method : U64} {actor : Bytes32} (ask : Asks c.input method actor)
      (hne : method ≠ Ids.submit) (hash : Bytes32) : ¬ Submits s.config i hash c :=
    fun hno => not_acceptedMethod_of_asks ask hne hno.method
  have hstep := hc.step
  cases hstep with
  | status ask => exact .inr ⟨hi, rfl, hnot ask (by decide)⟩
  | topup ask => exact .inr ⟨hi, rfl, hnot ask (by decide)⟩
  | fund ask => exact .inr ⟨hi, rfl, hnot ask (by decide)⟩
  | pay ask => exact .inr ⟨hi, rfl, hnot ask (by decide)⟩
  | refund ask => exact .inr ⟨hi, rfl, hnot ask (by decide)⟩
  | approve ask ok => exact .inr ⟨(of_update_eq hi (by decide)).2, rfl, hnot ask (by decide)⟩
  | bounce ret => exact .inr ⟨hi, rfl, fun _ hno => not_acceptedMethod_of_returns ret hno.method⟩
  | @receipt _ _ header ret ok arrived =>
      have hsame : (s.settled header.causeMsgHash).deliveryHashes = s.deliveryHashes := by
        unfold State.settled
        split_ifs <;> rfl
      refine .inr ⟨phases_settled (by decide) (by decide) hi, by rw [hsame], fun _ hno => ?_⟩
      exact not_acceptedMethod_of_returns ret hno.method
  | @submit actor j hash ask ok =>
      have hworker : c.input.caller = .external s.config.worker := by rw [ask.caller, ok.worker]
      by_cases hij : i = j
      · subst hij
        have hhash : (s.submitted i hash).deliveryHashes i = hash := Function.update_self ..
        refine .inl ⟨⟨hc.accepted, ask.not_callback, ask.method_eq⟩, hworker, ?_⟩
        rw [hhash]
        exact ok.body
      · have hphase : s.phases i = phaseSubmitted := by
          rw [← hi]
          exact (Function.update_of_ne hij ..).symm
        refine .inr ⟨hphase, Function.update_of_ne hij .., fun other hno => ?_⟩
        have hbodies := hno.body
        rw [ok.body] at hbodies
        exact hij (index_inj (List.cons.inj hbodies).1).symm

/-- **What waits for its approval** is what was handed in last. -/
theorem submission_of_runs (hrun : escrowMachine.Runs start calls s)
    (hi : s.phases i = phaseSubmitted) :
    LastSubmission s.config calls i (s.deliveryHashes i) := by
  revert i
  refine hrun.invariant (I := fun es s => ∀ {i}, s.phases i = phaseSubmitted →
    LastSubmission s.config es i (s.deliveryHashes i)) ?_ ?_
  · intro t ht i hi
    rw [ht.2.state_eq] at hi
    exact absurd hi (by decide : ¬ phaseOpen = phaseSubmitted)
  · intro es u c v hrun ih hmove i hi
    rcases moves_cases hmove with ⟨o, hc⟩ | ⟨rfl, hignored⟩
    · rw [hc.step.config_eq]
      rcases submitted_cases hc hi with hsubmits | ⟨hphase, hhash, hno⟩
      · exact lastSubmission_snoc hsubmits
      · rw [hhash]
        exact (ih hphase).snoc hno
    · exact (ih hi).snoc fun _ hno => hignored.refused hno.method.1

/-! ## Calls -/

/-- What a payment for a milestone meets. -/
structure PaymentSent (s t : State) (i : Fin maxMilestones) (intent : OutboundIntent) : Prop where
  before : s.phases i = phaseApproved
  after : t.phases i = phaseApproved
  destination_eq : intent.destination = s.config.payTo
  extra_eq : intent.extra = [⟨principalCurrencyId, s.config.amounts i⟩]

/-- What a refund meets: the owner asked for it, from the deadline on, and it carries the amounts of
the milestones that are open or submitted. -/
structure RefundSent (s : State) (c : Call) (intent : OutboundIntent) : Prop where
  method : c.AcceptedMethod Ids.refund
  owner : c.input.caller = .external s.config.owner
  late : s.config.deadline ≤ c.input.context.blockTime
  destination_eq : intent.destination = s.config.refundTo
  amount_eq : ∃ amount, intent.extra = [⟨principalCurrencyId, amount⟩] ∧
    amount.toNat = ∑ i with s.config.Active i ∧ Refundable (s.phases i), (s.config.amounts i).toNat

/-- A refund arrived: the milestones that were refundable when it was sent are refunded, and no
other. -/
def RefundSettled (pre : List Call) (s t : State) : Prop :=
  ∃ before d behind u, pre = before ++ d :: behind ∧
    (∃ intent ∈ d.output.outboundIntents, PaysBack intent.body) ∧ (∀ e ∈ behind, Idle e) ∧
    State.decode d.before = .ok u ∧
    ∀ i, (s.config.Active i ∧ Refundable (u.phases i) →
        s.phases i = u.phases i ∧ t.phases i = phaseRefunded) ∧
      (¬ (s.config.Active i ∧ Refundable (u.phases i)) → t.phases i = s.phases i)

/-- **What a call does** behind some other calls. -/
structure Ordered (pre : List Call) (c : Call) (s t : State) : Prop where
  moves : ∀ i, PhaseMove (s.phases i) (t.phases i)
  /-- What is approved is what was handed in last. -/
  approval : ∀ i, s.phases i ≠ phaseApproved → t.phases i = phaseApproved →
    ∃ hash, Approves s.config i hash c ∧ LastSubmission s.config pre i hash ∧
      t.deliveryHashes i = hash
  /-- What is sent is a payment or a refund. -/
  kinds : ∀ intent ∈ c.output.outboundIntents,
    (∃ i, s.config.Active i ∧ PaysFor i intent.body) ∨ PaysBack intent.body
  payment : ∀ intent ∈ c.output.outboundIntents, ∀ i, PaysFor i intent.body →
    PaymentSent s t i intent
  refund : ∀ intent ∈ c.output.outboundIntents, PaysBack intent.body → RefundSent s c intent
  settles : c.AcceptedReceipt → PaysBack c.input.message.body → RefundSettled pre s t
  /-- Nothing else refunds a milestone. -/
  refunded : ∀ i, s.phases i ≠ phaseRefunded → t.phases i = phaseRefunded →
    c.AcceptedReceipt ∧ PaysBack c.input.message.body

/-- A milestone becomes approved when the owner approves it. -/
theorem approval_of_performs (hrun : escrowMachine.Runs start pre s)
    (hc : Performs State.encode Step s c t o) (hs : s.phases i ≠ phaseApproved)
    (ht : t.phases i = phaseApproved) :
    ∃ hash, Approves s.config i hash c ∧ LastSubmission s.config pre i hash ∧
      t.deliveryHashes i = hash := by
  have hstep := hc.step
  cases hstep with
  | status => exact absurd ht hs
  | topup => exact absurd ht hs
  | fund => exact absurd ht hs
  | pay => exact absurd ht hs
  | refund => exact absurd ht hs
  | bounce => exact absurd ht hs
  | receipt => exact absurd (phases_settled (by decide) (by decide) ht) hs
  | submit => exact absurd (of_update_eq ht (by decide)).2 hs
  | @approve actor j ask ok =>
      have hij : i = j := by
        by_contra hne
        refine hs ?_
        rw [← ht]
        exact (Function.update_of_ne hne ..).symm
      subst hij
      have howner : c.input.caller = .external s.config.owner := by rw [ask.caller, ok.owner]
      exact ⟨s.deliveryHashes i, ⟨⟨hc.accepted, ask.not_callback, ask.method_eq⟩, howner, ok.early,
        ok.body⟩, submission_of_runs hrun ok.phase, rfl⟩

/-- What a call sends is the transfer of a payment or of a refund. -/
theorem sent_cases (hc : Performs State.encode Step s c t o) {intent : OutboundIntent}
    (hintent : intent ∈ c.output.outboundIntents) :
    (∃ actor j, Asks c.input Ids.pay actor ∧ PayOk c.input actor s j ∧
        t = s.dispatched 1 (BitVec.ofNat 8 j.val) (s.config.amounts j) ∧
        intent = t.transfer.intent) ∨
      ∃ actor amount, Asks c.input Ids.refund actor ∧ RefundOk c.input actor s amount ∧
        t = s.dispatched 2 255 amount ∧ intent = t.transfer.intent := by
  rw [hc.outbound] at hintent
  cases hc.step with
  | pay ask ok => exact .inl ⟨_, _, ask, ok, rfl, List.mem_singleton.mp hintent⟩
  | refund ask ok => exact .inr ⟨_, _, ask, ok, rfl, List.mem_singleton.mp hintent⟩
  | _ => exact absurd hintent List.not_mem_nil

/-- A refund that arrives refunds what was refundable when it was sent. -/
theorem refundSettled_of_pending (hrun : escrowMachine.Runs start pre s) {hash : Bytes32}
    (hkind : s.pending.kind = 2) : RefundSettled pre s (s.settled hash) := by
  obtain ⟨before, d, behind, u, rfl, hu, hfree, hd, hbehind⟩ :=
    pending_since hrun (by rw [hkind]; decide)
  have hvalid := escrow_implements.stored_of_runs hu
  have hsent : s.transfer.intent ∈ d.output.outboundIntents := by
    rw [hd.outbound]
    exact List.mem_singleton_self _
  have hphases : s.phases = u.phases := by
    rcases sent_cases hd hsent with ⟨_, _, -, -, rfl, -⟩ | ⟨_, _, -, -, rfl, -⟩ <;> rfl
  have hdecode : State.decode d.before = .ok u := by
    rw [hd.before]
    exact hvalid.decode_encode
  have hsettled : (s.settled hash).phases = s.refundedPhases := by
    have hno : ¬ s.pending.kind = 1 := by rw [hkind]; decide
    unfold State.settled
    rw [if_neg hno]
    rfl
  refine ⟨before, d, behind, u, rfl, ⟨_, hsent, hkind⟩, hbehind, hdecode, fun i => ?_⟩
  rw [hsettled, ← hphases]
  exact ⟨fun hboth => ⟨rfl, if_pos hboth⟩, fun hno => if_neg hno⟩

/-- **What an accepted call does.** -/
theorem ordered_of_performs (hrun : escrowMachine.Runs start pre s)
    (hc : Performs State.encode Step s c t o) : Ordered pre c s t := by
  have hs := escrow_implements.stored_of_runs hrun
  refine ⟨hc.step.phaseMove hs, fun i hi ht => approval_of_performs hrun hc hi ht, ?_, ?_, ?_, ?_, ?_⟩
  · intro intent hintent
    rcases sent_cases hc hintent with ⟨_, j, -, ok, rfl, rfl⟩ | ⟨_, _, -, ok, rfl, rfl⟩
    · exact .inl ⟨j, ok.active, rfl, rfl⟩
    · exact .inr rfl
  · intro intent hintent i hbody
    rcases sent_cases hc hintent with ⟨_, j, -, ok, rfl, rfl⟩ | ⟨_, _, -, ok, rfl, rfl⟩
    · obtain rfl := index_inj (i := j) (j := i) hbody.2
      exact ⟨ok.phase, ok.phase, rfl, rfl⟩
    · exact absurd hbody.1 (by decide : ¬ (2 : U8) = 1)
  · intro intent hintent hbody
    rcases sent_cases hc hintent with ⟨_, j, -, ok, rfl, rfl⟩ | ⟨actor, amount, ask, ok, rfl, rfl⟩
    · exact absurd hbody (by decide : ¬ (1 : U8) = 2)
    · have howner : c.input.caller = .external s.config.owner := by rw [ask.caller, ok.owner]
      refine ⟨⟨hc.accepted, ask.not_callback, ask.method_eq⟩, howner, ok.late, rfl, amount, rfl, ?_⟩
      rw [ok.amount_eq]
      exact State.sumWhere_eq hs.config Refundable
  · intro hreceipt hbody
    have hstep := hc.step
    cases hstep with
    | receipt ret ok arrived =>
        rw [ret.message_eq] at hbody
        have hpending : PaysBack (paymentBody s.pending) := arrived.body ▸ hbody
        exact refundSettled_of_pending hrun hpending
    | bounce ret ok returned =>
        exact absurd ((accepted_of_returns hc.accepted ret).2.2.1.mp hreceipt) returned.failure
    | status ask | topup ask | fund ask | submit ask | approve ask | pay ask | refund ask =>
        exact absurd hreceipt.1.2 ask.not_callback
  · intro i hi ht
    have hstep := hc.step
    cases hstep with
    | status => exact absurd ht hi
    | topup => exact absurd ht hi
    | fund => exact absurd ht hi
    | pay => exact absurd ht hi
    | refund => exact absurd ht hi
    | bounce => exact absurd ht hi
    | submit => exact absurd (of_update_eq ht (by decide)).2 hi
    | approve => exact absurd (of_update_eq ht (by decide)).2 hi
    | receipt ret ok arrived =>
        refine ⟨(accepted_of_returns hc.accepted ret).2.2.1.mpr arrived.success, ?_⟩
        by_cases hkind : s.pending.kind = 1
        · unfold State.settled at ht
          rw [if_pos hkind] at ht
          exact absurd (of_update_eq ht (by decide)).2 hi
        · have htwo := (hs.pending.kind_cases.resolve_left ok.pending).resolve_left hkind
          have hbody : c.input.message.body = paymentBody s.pending := by
            rw [ret.message_eq]
            exact arrived.body
          rw [hbody]
          exact htwo

/-- **What a call of a run does.** -/
theorem ordered_of_moves (hrun : escrowMachine.Runs start pre s)
    (hmove : escrowMachine.Moves s c t) : Ordered pre c s t := by
  rcases moves_cases hmove with ⟨o, hc⟩ | ⟨rfl, hignored⟩
  · exact ordered_of_performs hrun hc
  · have hnone (intent : OutboundIntent) : ¬ intent ∈ c.output.outboundIntents := by
      rw [hignored.outbound]
      exact List.not_mem_nil
    exact ⟨fun i => .same _, fun i hi ht => absurd ht hi,
      fun intent hintent => absurd hintent (hnone intent),
      fun intent hintent => absurd hintent (hnone intent),
      fun intent hintent => absurd hintent (hnone intent),
      fun hreceipt => absurd hreceipt.1.1 hignored.refused, fun i hi ht => absurd ht hi⟩

/-! ## Every run -/

/-- A payment that arrived pays its milestone, which was approved. -/
theorem paid_of_settles (hrun : escrowMachine.Runs start pre s) (hmove : escrowMachine.Moves s c t)
    (hc : SettlesPayment i c) : s.phases i = phaseApproved ∧ t.phases i = phasePaid := by
  have hs := escrow_implements.stored_of_runs hrun
  rcases moves_cases hmove with ⟨o, hperforms⟩ | ⟨rfl, hignored⟩
  · have hstep := hperforms.step
    cases hstep with
    | receipt ret ok arrived =>
        have hbody : c.input.message.body = paymentBody s.pending := by
          rw [ret.message_eq]
          exact arrived.body
        obtain ⟨hkind, hindex⟩ : s.pending.kind = 1 ∧ s.pending.index = BitVec.ofNat 8 i.val := by
          rw [← paysFor_paymentBody, ← hbody]
          exact hc.2
        have hi : milestone s.pending.index = i := by rw [hindex, milestone_index]
        rw [← hi]
        unfold State.settled
        rw [if_pos hkind]
        exact ⟨(hs.pending.payment hkind).2.1, Function.update_self ..⟩
    | bounce ret ok returned =>
        obtain ⟨-, -, hreceipt, -⟩ := accepted_of_returns hperforms.accepted ret
        exact absurd (hreceipt.mp hc.1) returned.failure
    | status ask | topup ask | fund ask | submit ask | approve ask | pay ask | refund ask =>
        exact absurd hc.1.1.2 ask.not_callback
  · exact absurd hc.1.1.1 hignored.refused

/-- The states around a call of a run. -/
theorem decode_of_moves (hrun : escrowMachine.Runs start pre s)
    (hmove : escrowMachine.Moves s c t) :
    State.decode c.before = .ok s ∧ State.decode c.after = .ok t := by
  have hs := escrow_implements.stored_of_runs hrun
  rcases moves_cases hmove with ⟨o, hc⟩ | ⟨rfl, hignored⟩
  · rw [hc.before, hc.after]
    exact ⟨hs.decode_encode, (hc.step.valid hs).decode_encode⟩
  · rw [hignored.after, hignored.before]
    exact ⟨hs.decode_encode, hs.decode_encode⟩

/-- **The phases** over some calls. -/
structure PhasesOrdered (start : MessageInput) (calls : List Call) : Prop where
  each : ∀ pre c post, calls = pre ++ c :: post → ∃ s t, State.decode c.before = .ok s ∧
    State.decode c.after = .ok t ∧ Terms start s.config ∧ Ordered pre c s t
  /-- What is approved, paid or refunded stays so, with its hash. -/
  later : ∀ pre c post, calls = pre ++ c :: post → ∀ d ∈ post, ∃ s t,
    State.decode c.after = .ok s ∧ State.decode d.after = .ok t ∧ Later s t
  /-- A milestone is paid once. -/
  once : ∀ pre c post i, calls = pre ++ c :: post → SettlesPayment i c → ∀ d ∈ post,
    ¬ SettlesPayment i d ∧ ∀ intent ∈ d.output.outboundIntents, ¬ PaysFor i intent.body

/-- **Milestones move in order**, and only what is approved is paid. -/
theorem phases_ordered {b : Bytes} (hrun : escrow.Runs start calls b) :
    PhasesOrdered start calls := by
  obtain ⟨s, hruns, hvalid, rfl⟩ := escrow_implements.runs hrun
  refine ⟨?_, ?_, ?_⟩
  · rintro pre c post rfl
    obtain ⟨s, t, hs, hmove⟩ := hruns.before
    obtain ⟨hbefore, hafter⟩ := decode_of_moves hs hmove
    exact ⟨s, t, hbefore, hafter, terms_of_runs hs, ordered_of_moves hs hmove⟩
  · rintro pre c post rfl d hd
    obtain ⟨s, t, u, v, hs, hmove, hlater, ⟨_, hu⟩, hmove'⟩ := between_calls hruns hd
    exact ⟨t, v, (decode_of_moves hs hmove).2, (decode_of_moves hu hmove').2,
      hlater.trans (later_of_moves hu hmove')⟩
  · rintro pre c post i rfl hc d hd
    obtain ⟨s, t, u, v, hs, hmove, hlater, ⟨_, hu⟩, hmove'⟩ := between_calls hruns hd
    have hpaid : u.phases i = phasePaid := hlater.paid i (paid_of_settles hs hmove hc).2
    have hno : ¬ u.phases i = phaseApproved := by
      rw [hpaid]
      decide
    refine ⟨fun hagain => hno (paid_of_settles hu hmove' hagain).1, fun intent hintent hbody => ?_⟩
    exact hno ((ordered_of_moves hu hmove').payment intent hintent i hbody).before

end

/-- An escrow with one milestone paid and the other one refunded. -/
theorem phases_ordered_sample :
    letI := Target.wasm32
    (∃ c ∈ sampleHistory, SettlesPayment sampleIndex c) ∧
      (∃ c ∈ sampleHistory, c.AcceptedReceipt ∧ PaysBack c.input.message.body) ∧
      PhasesOrdered sampleStart sampleHistory := by
  let _ := Target.wasm32
  obtain ⟨-, ⟨c, hc, hpaid, hbody⟩, ⟨d, hd, hrefunded, hback⟩⟩ := sampleHistory_accepts
  have hpays : PaysFor sampleIndex c.input.message.body := by
    rw [hbody]
    exact paysFor_paymentBody.mpr ⟨rfl, rfl⟩
  have hpaysBack : PaysBack d.input.message.body := by
    rw [hback]
    rfl
  exact ⟨⟨c, hc, hpaid, hpays⟩, ⟨d, hd, hrefunded, hpaysBack⟩, phases_ordered sampleHistoryRun⟩

end AvmSdk.Escrow
