import AvmSdk.Contracts.Escrow.Machine
import AvmSdk.Sdk.Input.Signed
import AvmSdk.Sdk.Output.Gate

/-!
# Deploying and using an escrow

Every valid configuration can be deployed by its owner before its deadline, and every step can be
taken.

* `deployment`, `starts_deployment`: the deployment of a configuration.
* `runs_step`: a run goes on with any step.
* `sampleRun`: an escrow with two milestones; the first is delivered, approved and on its way to be
  paid. `sampleHistoryRun`: it is paid at the second try, and the other one is refunded.
-/

namespace AvmSdk.Escrow

open Wire Sdk Contracts

/-- The deployment of a configuration at an address, signed by its owner. -/
def deployment (context : ExecutionContext) (config : Config) (account : AccountAddress) :
    MessageInput :=
  signedInput context (.ofEntries []) []
    { pubkey := config.owner
      destination := account
      deploys := true
      methodId := 0
      extra := .ofEntries []
      body := deployBody config.encode }

/-- What a configuration must satisfy at an address and a time. -/
structure Config.DeployableAt (config : Config) (account : AccountAddress) (now : U32) : Prop where
  valid : config.Valid
  account_ne_zero : ¬ isZeroAddress account
  early : now < config.deadline
  payTo_ne : config.payTo ≠ account
  refundTo_ne : config.refundTo ≠ account

section

variable [Target] {context : ExecutionContext} {config : Config} {account : AccountAddress}
  {start x : MessageInput} {calls : List Call} {s t : State} {o : Option Transfer}

/-- The configuration of a deployment. -/
theorem deploy_deployment :
    (deployment context config account).deploy = .ok ⟨zeros 32, zeros 32, [], [], config.encode⟩ := by
  refine deploy_signedInput rfl rfl ?_
  rw [Config.length_encode]
  decide

/-- **A valid configuration** can be deployed by its owner. -/
theorem starts_deployment (h : config.DeployableAt account context.blockTime) :
    escrow.Starts (deployment context config account) (State.new config).encode := by
  obtain ⟨e, he⟩ := (valid_new h.valid).exists_finish "escrow.created" 255 0 ⟨_, rfl⟩
  have hdecode : Config.decode config.encode = .ok config :=
    Config.decode_ok_iff.mpr ⟨rfl, h.valid⟩
  have hwf : (deployment context config account).WellFormed := by
    refine signedInput_wellFormed ⟨h.valid.owner_ne_zero, h.account_ne_zero,
      CurrencyAmounts.wellFormed_ofEntries_nil, ?_⟩ CurrencyAmounts.wellFormed_ofEntries_nil
      (Nat.two_pow_pos 32)
    show (deployBody config.encode).length < 2 ^ 31
    rw [length_deployBody, Config.length_encode]
    decide
  have hearly : ¬ ((deployment context config account).state ≠ [] ∨
      config.deadline ≤ (deployment context config account).context.blockTime) := by
    rintro (hstate | hlate)
    · exact hstate rfl
    · exact absurd h.early (BitVec.not_lt.mpr hlate)
  have haccounts : ¬ (config.payTo = (deployment context config account).destination ∨
      config.refundTo = (deployment context config account).destination) := by
    rintro (hpay | hrefund)
    · exact h.payTo_ne hpay
    · exact h.refundTo_ne hrefund
  have hinit : initializeEscrow (deployment context config account) =
      .ok (announced (State.new config).encode e) := by
    simp only [initializeEscrow, deploy_deployment, bind_ok_iff, mapError_ok_iff, failIf_ok_iff,
      exists_const]
    refine ⟨_, rfl, config, hdecode, not_not.mpr rfl, hearly, haccounts, (), ?_, he⟩
    exact failIf_ok_iff.mpr (not_not.mpr rfl)
  have hout : escrow.init (deployment context config account) =
      announced (State.new config).encode e := by
    show orFailure (initializeEscrow _) = _
    rw [hinit]
    rfl
  refine ⟨hwf, ?_, ?_⟩
  · rw [hout]
    rfl
  · rw [hout]
    rfl

/-- **A run goes on** with any step. -/
theorem runs_step (hrun : escrow.Runs start calls s.encode) (hs : s.Valid) (hwf : x.WellFormed)
    (hstate : x.state = s.encode) (hstep : Step x s t o) :
    escrow.Runs start (calls ++ [⟨x, escrow.processMessage x⟩]) t.encode := by
  obtain ⟨e, he⟩ := processMessage_of_step hs hstate hstep
  exact runs_of_answer hrun hwf hstate he

/-- A step is an accepted call. -/
theorem accepted_of_step (hs : s.Valid) (hstate : x.state = s.encode) (hstep : Step x s t o) :
    Call.Accepted ⟨x, escrow.processMessage x⟩ := by
  obtain ⟨e, he⟩ := processMessage_of_step hs hstate hstep
  exact accepted_of_answer he

end

/-! ## An escrow with two milestones -/

/-- Two milestones of 600 and 400, until the time 100. -/
def sampleConfig : Config where
  owner := (sampleAddress 9).dappId
  worker := (sampleAddress 8).dappId
  refundTo := sampleAddress 22
  payTo := sampleAddress 21
  total := 1000
  deadline := 100
  count := 2
  amounts i := if i.val = 0 then 600 else if i.val = 1 then 400 else 0
  fuelReserve := 5

/-- The first milestone. -/
def sampleIndex : Fin maxMilestones := ⟨0, by decide⟩

/-- The hash of the first delivery. -/
def sampleHash : Bytes32 := (sampleAddress 7).dappId

/-- The configuration can be deployed at an account. -/
theorem sampleConfig_deployable : sampleConfig.DeployableAt (sampleAddress 20) 50 := by
  refine ⟨⟨by decide, by decide, by decide, by decide, by decide, by decide, by decide, by decide,
    by decide, by decide, by decide, by decide, by decide, by decide⟩, by decide, by decide, by decide,
    by decide⟩

/-- The deployment of the configuration at the time 50. -/
def sampleStart : MessageInput := deployment ⟨0, 50, 0, zeros 32⟩ sampleConfig (sampleAddress 20)

/-- What the account holds. -/
def sampleBalance : CurrencyAmounts := holding 1000 9

/-- A call of the account at a time. -/
def sampleCall (time : U32) (s : State) (pubkey : Bytes32) (methodId : U64)
    (extra : List CurrencyAmount) (body : Bytes) : MessageInput :=
  signedInput ⟨0, time, 0, zeros 32⟩ sampleBalance s.encode
    { pubkey := pubkey
      destination := sampleAddress 20
      deploys := false
      methodId := methodId
      extra := .ofEntries extra
      body := body }

/-- The principal comes in at the time 60. -/
def sampleFund : MessageInput :=
  sampleCall 60 (State.new sampleConfig) sampleConfig.owner Ids.fund [⟨principalCurrencyId, 1000⟩] []

/-- The state with the principal. -/
def sampleFunded : State := (State.new sampleConfig).deposited

/-- The worker delivers at the time 70. -/
def sampleSubmit : MessageInput :=
  sampleCall 70 sampleFunded sampleConfig.worker Ids.submit [] (0 :: sampleHash.val)

/-- The state with the delivery. -/
def sampleSubmitted : State := sampleFunded.submitted sampleIndex sampleHash

/-- The owner approves at the time 80. -/
def sampleApprove : MessageInput :=
  sampleCall 80 sampleSubmitted sampleConfig.owner Ids.approve [] (0 :: sampleHash.val)

/-- The state with the approval. -/
def sampleApproved : State := sampleSubmitted.approved sampleIndex

/-- The worker asks for the payment at the time 110. -/
def samplePay : MessageInput :=
  sampleCall 110 sampleApproved sampleConfig.worker Ids.pay [] [0]

/-- The state with the payment under way. -/
def samplePaid : State := sampleApproved.dispatched 1 0 600

section

variable [Target]

/-- The calls of the sample. -/
def sampleCalls : List Call :=
  [⟨sampleFund, escrow.processMessage sampleFund⟩,
    ⟨sampleSubmit, escrow.processMessage sampleSubmit⟩,
    ⟨sampleApprove, escrow.processMessage sampleApprove⟩,
    ⟨samplePay, escrow.processMessage samplePay⟩]

/-- A call is well formed. -/
theorem sampleCall_wellFormed {time : U32} {s : State} {pubkey : Bytes32} {methodId : U64}
    {extra : List CurrencyAmount} {body : Bytes} (hkey : pubkey ≠ zeros 32)
    (hextra : extra.length < 2 ^ 16)
    (hascending : (extra.map CurrencyAmount.currencyId).Pairwise (· < ·))
    (hbody : body.length < 2 ^ 31) :
    (sampleCall time s pubkey methodId extra body).WellFormed := by
  refine signedInput_wellFormed ⟨hkey, (by decide : ¬ isZeroAddress (sampleAddress 20)),
    CurrencyAmounts.wellFormed_ofEntries hextra hascending, hbody⟩ (wellFormed_holding 1000 9) ?_
  rw [State.length_encode]
  decide

/-- The principal is accepted. -/
theorem step_sampleFund : Step sampleFund (State.new sampleConfig) sampleFunded none := by
  have hitems : sampleFund.message.extra.items = [⟨principalCurrencyId, 1000⟩] :=
    CurrencyAmounts.items_ofEntries (by decide)
  have hvalue : principal sampleFund.message.extra = 1000 := by
    unfold principal
    rw [hitems]
    rfl
  have hbalance : principal sampleFund.extra = 1000 := principal_holding 1000 9
  have ask : Asks sampleFund Ids.fund sampleConfig.owner := ⟨fun hno => hno, rfl, rfl⟩
  have ok : FundOk sampleFund sampleConfig.owner (State.new sampleConfig) := by
    refine ⟨rfl, rfl, rfl, by decide, rfl, hvalue, rfl, ?_⟩
    rw [hbalance]
    exact BitVec.le_refl _
  exact Step.fund ask ok

/-- The delivery is accepted. -/
theorem step_sampleSubmit : Step sampleSubmit sampleFunded sampleSubmitted none := by
  have ask : Asks sampleSubmit Ids.submit sampleConfig.worker := ⟨fun hno => hno, rfl, rfl⟩
  have ok : SubmitOk sampleSubmit sampleConfig.worker sampleFunded sampleIndex sampleHash :=
    ⟨⟨rfl, rfl, by decide⟩, rfl, by decide, rfl, by decide, by decide, by decide⟩
  exact Step.submit ask ok

/-- The approval is accepted. -/
theorem step_sampleApprove : Step sampleApprove sampleSubmitted sampleApproved none := by
  have ask : Asks sampleApprove Ids.approve sampleConfig.owner := ⟨fun hno => hno, rfl, rfl⟩
  have ok : ApproveOk sampleApprove sampleConfig.owner sampleSubmitted sampleIndex :=
    ⟨⟨rfl, rfl, by decide⟩, rfl, by decide, rfl, by decide, rfl⟩
  exact Step.approve ask ok

/-- The worker is paid for the first milestone, in a state where it is approved. -/
theorem step_payment {before : State} (hconfig : before.config = sampleConfig)
    (hidle : before.pending.kind = 0) (hfunded : before.funded = 1000) (hpaid : before.paid = 0)
    (hroom : before.attempts.toNat < maxAttempts) (hphase : before.phases sampleIndex = phaseApproved) :
    Step (sampleCall 110 before sampleConfig.worker Ids.pay [] [0]) before (before.dispatched 1 0 600)
      (some (before.dispatched 1 0 600).transfer) := by
  have ask : Asks (sampleCall 110 before sampleConfig.worker Ids.pay [] [0]) Ids.pay
      sampleConfig.worker := ⟨fun hno => hno, rfl, rfl⟩
  have send : SendOk (sampleCall 110 before sampleConfig.worker Ids.pay [] [0]) before := by
    refine ⟨hroom, ?_, ?_⟩
    · show before.funded.toNat - before.paid.toNat - before.refunded.toNat ≤
        (principal (holding 1000 9)).toNat
      rw [principal_holding, hfunded, hpaid]
      exact (Nat.sub_le _ _).trans (Nat.sub_le _ _)
    · show ∃ c ∈ (holding 1000 9).items,
        c.currencyId = shellCurrencyId ∧ before.config.fuelReserve ≤ c.amount
      rw [items_holding, hconfig]
      decide
  have ready : Ready (sampleCall 110 before sampleConfig.worker Ids.pay [] [0]) before := by
    refine ⟨hidle, rfl, ?_⟩
    rw [hfunded]
    decide
  have ok : PayOk (sampleCall 110 before sampleConfig.worker Ids.pay [] [0]) sampleConfig.worker
      before sampleIndex := by
    refine ⟨ready, send, .inr (by rw [hconfig]), rfl, ?_, hphase⟩
    rw [hconfig]
    decide
  have hstep := Step.pay ask ok
  rw [hconfig] at hstep
  exact hstep

/-- The payment is accepted. -/
theorem step_samplePay : Step samplePay sampleApproved samplePaid (some samplePaid.transfer) :=
  step_payment rfl rfl rfl rfl (by decide) rfl

/-- A run of the escrow: the principal, a delivery, its approval and its payment. -/
theorem sampleRun : escrow.Runs sampleStart sampleCalls samplePaid.encode := by
  have hdeploy : sampleConfig.DeployableAt (sampleAddress 20) sampleStart.context.blockTime :=
    sampleConfig_deployable
  have hstart : escrow.Runs sampleStart [] (State.new sampleConfig).encode :=
    .start (starts_deployment hdeploy)
  have hnew := valid_new sampleConfig_deployable.valid
  have hfund := runs_step hstart hnew
    (sampleCall_wellFormed (by decide) (by decide) (by decide) (by decide))
    (state_signedInput _ _ _ _) step_sampleFund
  have hfunded := step_sampleFund.valid hnew
  have hsubmit := runs_step hfund hfunded
    (sampleCall_wellFormed (by decide) (by decide) (by decide) (by decide))
    (state_signedInput _ _ _ _) step_sampleSubmit
  have hsubmitted := step_sampleSubmit.valid hfunded
  have happrove := runs_step hsubmit hsubmitted
    (sampleCall_wellFormed (by decide) (by decide) (by decide) (by decide))
    (state_signedInput _ _ _ _) step_sampleApprove
  exact runs_step happrove (step_sampleApprove.valid hsubmitted)
    (sampleCall_wellFormed (by decide) (by decide) (by decide) (by decide))
    (state_signedInput _ _ _ _) step_samplePay

end

/-! ### A longer history -/

/-- A callback of an account. -/
def sampleReturn (source hash : U8) (statusCode : U32) (extra : List CurrencyAmount) (body : Bytes) :
    ReturnedCall where
  source := sampleAddress source
  destination := sampleAddress 20
  methodId := Ids.callback
  createdLt := 1
  causeMsgHash := (sampleAddress hash).dappId
  statusCode := statusCode
  extra := .ofEntries extra
  body := body

/-- The message of a callback to the account, at the time 110. -/
def sampleAnswer (s : State) (call : ReturnedCall) : MessageInput :=
  internalInput ⟨0, 110, 0, zeros 32⟩ (holding 1000 9) s.encode call.message

/-- The payment has come back. -/
def sampleBounced : ReturnedCall := sampleReturn 21 41 7 [⟨principalCurrencyId, 600⟩] []

/-- The state after the return: nothing is pending, and the milestone is still approved. -/
def sampleReleased : State := samplePaid.closed (sampleAddress 41).dappId

/-- The state with a second payment under way. -/
def sampleRepaid : State := sampleReleased.dispatched 1 0 600

/-- The second payment has arrived. -/
def sampleArrived : ReturnedCall := sampleReturn 21 42 0 [] (paymentBody sampleRepaid.pending)

/-- The state with the milestone paid. -/
def sampleSettled : State := sampleRepaid.settled (sampleAddress 42).dappId

/-- The state with the rest on its way back. -/
def sampleReturning : State := sampleSettled.dispatched 2 255 400

/-- The refund has arrived. -/
def sampleTaken : ReturnedCall := sampleReturn 22 43 0 [] (paymentBody sampleReturning.pending)

/-- The state with the other milestone refunded. -/
def sampleRefunded : State := sampleReturning.settled (sampleAddress 43).dappId

/-- The messages after the first payment. -/
def sampleMessages : List MessageInput :=
  [sampleAnswer samplePaid sampleBounced,
    sampleCall 110 sampleReleased sampleConfig.worker Ids.pay [] [0],
    sampleAnswer sampleRepaid sampleArrived,
    sampleCall 110 sampleSettled sampleConfig.owner Ids.refund [] [],
    sampleAnswer sampleReturning sampleTaken]

section

variable [Target]

/-- A callback is well formed. -/
theorem sampleAnswer_wellFormed {s : State} {call : ReturnedCall} (hcall : call.Sendable) :
    (sampleAnswer s call).WellFormed := by
  refine callbackInput_wellFormed hcall (wellFormed_holding 1000 9) ?_
  rw [State.length_encode]
  decide

/-- The first payment comes back, -/
theorem step_sampleReleased :
    Step (sampleAnswer samplePaid sampleBounced) samplePaid sampleReleased none := by
  have hextra : sampleBounced.message.extra.items = [⟨principalCurrencyId, 600⟩] :=
    CurrencyAmounts.items_ofEntries (by decide)
  refine .bounce returns_returnedCall
    ⟨by decide, rfl, rfl, rfl, by decide, by decide, by decide, ?_⟩ ⟨by decide, ?_, rfl⟩
  · rw [hextra]
    decide
  · rw [principal, hextra]
    rfl

/-- the second one is sent, -/
theorem step_sampleRepaid :
    Step (sampleCall 110 sampleReleased sampleConfig.worker Ids.pay [] [0]) sampleReleased sampleRepaid
      (some sampleRepaid.transfer) :=
  step_payment rfl rfl rfl rfl (by decide) rfl

/-- and arrives. -/
theorem step_sampleSettled :
    Step (sampleAnswer sampleRepaid sampleArrived) sampleRepaid sampleSettled none := by
  have hextra : sampleArrived.message.extra.items = [] :=
    CurrencyAmounts.items_ofEntries (Nat.two_pow_pos 16)
  refine .receipt returns_returnedCall
    ⟨by decide, rfl, rfl, rfl, by decide, by decide, by decide, ?_⟩ ⟨rfl, ?_, rfl⟩
  · rw [hextra]
    exact List.forall_mem_nil _
  · rw [hextra]
    exact List.forall_mem_nil _

/-- The owner takes back the rest, -/
theorem step_sampleReturning :
    Step (sampleCall 110 sampleSettled sampleConfig.owner Ids.refund [] []) sampleSettled
      sampleReturning (some sampleReturning.transfer) := by
  have hbalance : principal (holding 1000 9) = 1000 := principal_holding 1000 9
  have ok : RefundOk (sampleCall 110 sampleSettled sampleConfig.owner Ids.refund [] [])
      sampleConfig.owner sampleSettled 400 := by
    refine ⟨⟨rfl, rfl, by decide⟩, ⟨by decide, ?_, ?_⟩, rfl, rfl, by decide, by decide, by decide⟩
    · show sampleSettled.funded.toNat - sampleSettled.paid.toNat - sampleSettled.refunded.toNat ≤
        (principal (holding 1000 9)).toNat
      rw [hbalance]
      decide
    · show ∃ c ∈ (holding 1000 9).items, c.currencyId = shellCurrencyId ∧ (5 : U128) ≤ c.amount
      rw [items_holding]
      decide
  exact .refund ⟨fun hno => hno, rfl, rfl⟩ ok

/-- which arrives. -/
theorem step_sampleRefunded :
    Step (sampleAnswer sampleReturning sampleTaken) sampleReturning sampleRefunded none := by
  have hextra : sampleTaken.message.extra.items = [] :=
    CurrencyAmounts.items_ofEntries (Nat.two_pow_pos 16)
  refine .receipt returns_returnedCall
    ⟨by decide, rfl, rfl, rfl, by decide, by decide, by decide, ?_⟩ ⟨rfl, ?_, rfl⟩
  · rw [hextra]
    exact List.forall_mem_nil _
  · rw [hextra]
    exact List.forall_mem_nil _

/-- The states of the history are valid. -/
theorem valid_samples : samplePaid.Valid ∧ sampleReleased.Valid ∧ sampleRepaid.Valid ∧
    sampleSettled.Valid ∧ sampleReturning.Valid := by
  have hnew := valid_new sampleConfig_deployable.valid
  have hsubmitted := step_sampleSubmit.valid (step_sampleFund.valid hnew)
  have hpaid := step_samplePay.valid (step_sampleApprove.valid hsubmitted)
  have hreleased := step_sampleReleased.valid hpaid
  have hrepaid := step_sampleRepaid.valid hreleased
  have hsettled := step_sampleSettled.valid hrepaid
  exact ⟨hpaid, hreleased, hrepaid, hsettled, step_sampleReturning.valid hsettled⟩

/-- The calls up to the return of the first payment. -/
def sampleReleasedCalls : List Call :=
  sampleCalls ++ [⟨sampleAnswer samplePaid sampleBounced,
    escrow.processMessage (sampleAnswer samplePaid sampleBounced)⟩]

/-- The escrow after its first payment came back. -/
theorem sampleReleasedRun : escrow.Runs sampleStart sampleReleasedCalls sampleReleased.encode := by
  have haddresses : ¬ isZeroAddress (sampleAddress 20) ∧ ¬ isZeroAddress (sampleAddress 21) := by
    decide
  have hwf : (sampleAnswer samplePaid sampleBounced).WellFormed :=
    sampleAnswer_wellFormed ⟨haddresses.2, haddresses.1, by decide, by decide, fun _ => rfl,
      CurrencyAmounts.wellFormed_ofEntries (by decide) (by decide), by decide⟩
  exact runs_step sampleRun valid_samples.1 hwf rfl step_sampleReleased

/-- The calls of the longer history. -/
def sampleHistory : List Call :=
  sampleCalls ++ sampleMessages.map fun x => ⟨x, escrow.processMessage x⟩

/-- A run of the escrow: a payment that came back, one that arrived, and a refund. -/
theorem sampleHistoryRun : escrow.Runs sampleStart sampleHistory sampleRefunded.encode := by
  obtain ⟨-, hreleased, hrepaid, hsettled, hreturning⟩ := valid_samples
  have haddresses : ¬ isZeroAddress (sampleAddress 20) ∧ ¬ isZeroAddress (sampleAddress 21) ∧
      ¬ isZeroAddress (sampleAddress 22) := by
    decide
  have hcall {s : State} {key : Bytes32} {methodId : U64} {body : Bytes} (hkey : key ≠ zeros 32)
      (hbody : body.length < 2 ^ 31) : (sampleCall 110 s key methodId [] body).WellFormed :=
    sampleCall_wellFormed hkey (Nat.two_pow_pos 16) .nil hbody
  have hwfArrived : (sampleAnswer sampleRepaid sampleArrived).WellFormed :=
    sampleAnswer_wellFormed ⟨haddresses.2.1, haddresses.1, by decide, by decide,
      fun hno => absurd rfl hno, CurrencyAmounts.wellFormed_ofEntries_nil, by decide⟩
  have hwfTaken : (sampleAnswer sampleReturning sampleTaken).WellFormed :=
    sampleAnswer_wellFormed ⟨haddresses.2.2, haddresses.1, by decide, by decide,
      fun hno => absurd rfl hno, CurrencyAmounts.wellFormed_ofEntries_nil, by decide⟩
  have hrunRepaid := runs_step sampleReleasedRun hreleased
    (hcall (by decide) (by decide)) rfl step_sampleRepaid
  have hrunSettled := runs_step hrunRepaid hrepaid hwfArrived rfl step_sampleSettled
  have hrunReturning := runs_step hrunSettled hsettled
    (hcall (by decide) (by decide)) rfl step_sampleReturning
  exact runs_step hrunReturning hreturning hwfTaken rfl step_sampleRefunded

/-- The history has a payment that came back, one that arrived, and a refund that arrived. -/
theorem sampleHistory_accepts : (∃ c ∈ sampleHistory, c.AcceptedBounce) ∧
    (∃ c ∈ sampleHistory, c.AcceptedReceipt ∧
      c.input.message.body = paymentBody sampleRepaid.pending) ∧
    ∃ c ∈ sampleHistory, c.AcceptedReceipt ∧
      c.input.message.body = paymentBody sampleReturning.pending := by
  obtain ⟨hpaid, -, hrepaid, -, hreturning⟩ := valid_samples
  have hmem {x : MessageInput} (hx : x ∈ sampleMessages) :
      Call.mk x (escrow.processMessage x) ∈ sampleHistory :=
    List.mem_append_right _ (List.mem_map_of_mem hx)
  have hstatus : sampleBounced.statusCode ≠ 0 := by decide
  refine ⟨⟨_, hmem (by simp [sampleMessages]),
    acceptedBounce_of_returned (accepted_of_step hpaid rfl step_sampleReleased) rfl hstatus⟩, ?_, ?_⟩
  · exact ⟨_, hmem (by simp [sampleMessages]),
      acceptedReceipt_of_returned (accepted_of_step hrepaid rfl step_sampleSettled) rfl rfl, rfl⟩
  · exact ⟨_, hmem (by simp [sampleMessages]),
      acceptedReceipt_of_returned (accepted_of_step hreturning rfl step_sampleRefunded) rfl rfl, rfl⟩

end

end AvmSdk.Escrow
