import AvmSdk.Contracts.Vesting.Machine
import AvmSdk.Sdk.Input.Signed
import AvmSdk.Sdk.Output.Gate

/-!
# Deploying and using a vesting contract

Every valid configuration can be deployed by its owner before its first stream starts, and every
step can be taken.

* `deployment`, `starts_deployment`: the deployment of a configuration.
* `runs_step`: a run goes on with any step.
* `sampleRun`: a contract with one stream, after the principal came in and a payment was sent.
* `sampleHistoryRun`: the same contract after the receipt, a cancellation and a refund that came back.
-/

namespace AvmSdk.Vesting

open Wire Sdk Contracts

/-- The deployment of a configuration at an address, signed by its owner. -/
def deployment (context : ExecutionContext) (config : Config) (account : AccountAddress) :
    MessageInput :=
  signedInput context (.ofEntries []) []
    { pubkey := config.owner
      destination := account
      deploys := true
      methodId := 0
      extra := .ofEntries []
      body := deployBody config.encode }

/-- What a configuration must satisfy at an address and a time. -/
structure Config.DeployableAt (config : Config) (account : AccountAddress) (now : U32) : Prop where
  valid : config.Valid
  account_ne_zero : ¬ isZeroAddress account
  early : now < config.firstStart
  lanes : ∀ i, config.Active i → ∀ k, (config.streams i).destination k ≠ account ∧
    ((config.streams i).destination k).dappId = account.dappId

section

variable [Target] {context : ExecutionContext} {config : Config} {account : AccountAddress}
  {start x : MessageInput} {calls : List Call} {s t : State} {o : Option Transfer}

/-- The configuration of a deployment. -/
theorem deploy_deployment :
    (deployment context config account).deploy = .ok ⟨zeros 32, zeros 32, [], [], config.encode⟩ := by
  refine deploy_signedInput rfl rfl ?_
  rw [Config.length_encode]
  decide

/-- **A valid configuration** can be deployed by its owner. -/
theorem starts_deployment (h : config.DeployableAt account context.blockTime) :
    vesting.Starts (deployment context config account) (State.new config context.blockTime).encode := by
  obtain ⟨e, he⟩ := (valid_new h.valid context.blockTime).exists_finish Ids.eventCreated
    "stream.created" 255 255 0
  have hdecode : Config.decode config.encode = .ok config :=
    Config.decode_ok_iff.mpr ⟨rfl, h.valid⟩
  have hwf : (deployment context config account).WellFormed := by
    refine signedInput_wellFormed ⟨h.valid.owner_ne_zero, h.account_ne_zero,
      CurrencyAmounts.wellFormed_ofEntries_nil, ?_⟩ CurrencyAmounts.wellFormed_ofEntries_nil
      (Nat.two_pow_pos 32)
    show (deployBody config.encode).length < 2 ^ 31
    rw [length_deployBody, Config.length_encode]
    decide
  have hguard : ¬ ((deployment context config account).state ≠ [] ∨
      config.firstStart ≤ (deployment context config account).context.blockTime ∨
      ∃ i ∈ firstIndices maxStreams config.count.toNat,
        ∃ a ∈ [(config.streams i).payout, (config.streams i).refund],
          a = (deployment context config account).destination ∨
            a.dappId ≠ (deployment context config account).destination.dappId) := by
    rintro (hstate | hlate | ⟨i, hi, a, ha, hno⟩)
    · exact hstate rfl
    · exact absurd h.early (BitVec.not_lt.mpr hlate)
    · have hlanes := h.lanes i (mem_firstIndices.mp hi)
      simp only [List.mem_cons, List.not_mem_nil, or_false] at ha
      rcases ha with rfl | rfl
      · exact hno.elim (fun heq => (hlanes 0).1 heq) fun hdapp => hdapp (hlanes 0).2
      · exact hno.elim (fun heq => (hlanes 1).1 heq) fun hdapp => hdapp (hlanes 1).2
  have hinit : initializeVesting (deployment context config account) =
      .ok (announced (State.new config context.blockTime).encode e) := by
    simp only [initializeVesting, deploy_deployment, bind_ok_iff, mapError_ok_iff, failIf_ok_iff,
      exists_const]
    refine ⟨_, rfl, config, hdecode, not_not.mpr rfl, (), ?_, hguard, he⟩
    exact failIf_ok_iff.mpr (not_not.mpr rfl)
  have hout : vesting.init (deployment context config account) =
      announced (State.new config context.blockTime).encode e := by
    show orFailure (initializeVesting _) = _
    rw [hinit]
    rfl
  refine ⟨hwf, ?_, ?_⟩
  · rw [hout]
    rfl
  · rw [hout]
    rfl

/-- **A run goes on** with any step. -/
theorem runs_step (hrun : vesting.Runs start calls s.encode) (hs : s.Valid) (hwf : x.WellFormed)
    (hstate : x.state = s.encode) (hstep : Step x s t o) :
    vesting.Runs start (calls ++ [⟨x, vesting.processMessage x⟩]) t.encode := by
  obtain ⟨e, he⟩ := processMessage_of_step hs hstate hstep
  exact runs_of_answer hrun hwf hstate he

/-- A step is an accepted call. -/
theorem accepted_of_step (hs : s.Valid) (hstate : x.state = s.encode) (hstep : Step x s t o) :
    Call.Accepted ⟨x, vesting.processMessage x⟩ := by
  obtain ⟨e, he⟩ := processMessage_of_step hs hstate hstep
  exact accepted_of_answer he

end

/-! ## A contract with one stream -/

/-- An account of one application. -/
def sampleAccount (byte : U8) : AccountAddress :=
  ⟨(sampleAddress 1).dappId, (sampleAddress byte).dappId⟩

/-- A stream of 1000 from the time 100 to the time 200. -/
def sampleStream : Stream where
  key := (sampleAddress 11).dappId
  payout := sampleAccount 21
  refund := sampleAccount 22
  total := 1000
  start := 100
  cliff := 100
  endTime := 200
  step := 0
  revocable := true

/-- A configuration with this stream. -/
def sampleConfig : Config where
  owner := (sampleAddress 9).dappId
  fuel := 5
  count := 1
  streams i := if i.val = 0 then sampleStream else Stream.default

/-- The stream with index zero. -/
def sampleIndex : Fin maxStreams := ⟨0, by decide⟩

/-- Its only stream. -/
theorem active_sampleConfig {i : Fin maxStreams} (hi : sampleConfig.Active i) : i = sampleIndex := by
  have hlt : i.val < 1 := hi
  exact Fin.ext (Nat.lt_one_iff.mp hlt)

/-- The configuration can be deployed at an account. -/
theorem sampleConfig_deployable : sampleConfig.DeployableAt (sampleAccount 20) 50 := by
  refine ⟨⟨by decide, by decide, by decide, by decide, ?_, ?_, ?_, ?_, ?_, ?_, ?_, by decide⟩,
    by decide, by decide, ?_⟩
  · intro i hi
    rw [active_sampleConfig hi]
    decide
  · intro i hi
    rw [active_sampleConfig hi]
    decide
  · intro i hi
    rw [active_sampleConfig hi]
    decide
  · intro i hi
    rw [active_sampleConfig hi]
    decide
  · intro i hi
    rw [active_sampleConfig hi]
    exact ⟨by decide, by decide, by decide, by decide, by decide, by decide⟩
  · intro i j hi hj
    rw [active_sampleConfig hi] at hj
    exact absurd (show j.val < 0 from hj) (Nat.not_lt_zero _)
  · intro i hi
    have hle : 1 ≤ i.val := Nat.not_lt.mp hi
    show (if i.val = 0 then sampleStream else Stream.default) = Stream.default
    exact if_neg (Nat.one_le_iff_ne_zero.mp hle)
  · intro i hi
    rw [active_sampleConfig hi]
    decide

/-- The deployment of the configuration at the time 50. -/
def sampleStart : MessageInput := deployment ⟨0, 50, 0, zeros 32⟩ sampleConfig (sampleAccount 20)

/-- What the account holds. -/
def sampleBalance : CurrencyAmounts := holding 1000 9

/-- The principal comes in at the time 60. -/
def sampleFund : MessageInput :=
  signedInput ⟨1, 60, 0, zeros 32⟩ sampleBalance (State.new sampleConfig 50).encode
    { pubkey := sampleConfig.owner
      destination := sampleAccount 20
      deploys := false
      methodId := Ids.fund
      extra := .ofEntries [⟨principalCurrencyId, 1000⟩]
      body := [] }

/-- The state with the principal. -/
def sampleFunded : State := ((State.new sampleConfig 50).observed 60).deposited

/-- The payee claims at the time 150. -/
def sampleClaim : MessageInput :=
  signedInput ⟨2, 150, 0, zeros 32⟩ sampleBalance sampleFunded.encode
    { pubkey := sampleStream.key
      destination := sampleAccount 20
      deploys := false
      methodId := Ids.claim
      extra := .ofEntries []
      body := [0] }

/-- The state after the claim. -/
def sampleClaimed : State := (sampleFunded.observed 150).locked sampleIndex 0 500 1 2

section

variable [Target]

/-- The principal and the claim. -/
def sampleCalls : List Call :=
  [⟨sampleFund, vesting.processMessage sampleFund⟩,
    ⟨sampleClaim, vesting.processMessage sampleClaim⟩]

/-- The funding is well formed, -/
theorem sampleFund_wellFormed : sampleFund.WellFormed := by
  refine signedInput_wellFormed ⟨by decide, by decide,
    CurrencyAmounts.wellFormed_ofEntries (by decide) (by decide), by decide⟩
    (wellFormed_holding 1000 9) ?_
  rw [State.length_encode]
  decide

/-- and so is the claim. -/
theorem sampleClaim_wellFormed : sampleClaim.WellFormed := by
  refine signedInput_wellFormed ⟨by decide, by decide, CurrencyAmounts.wellFormed_ofEntries_nil,
    by decide⟩ (wellFormed_holding 1000 9) ?_
  rw [State.length_encode]
  decide

/-- The principal is accepted. -/
theorem step_sampleFund : Step sampleFund (State.new sampleConfig 50) sampleFunded none := by
  have hwf : sampleFund.message.extra.WellFormed := sampleFund_wellFormed.message_ok.extra_ok
  have hitems : sampleFund.message.extra.items = [⟨principalCurrencyId, 1000⟩] :=
    CurrencyAmounts.items_ofEntries (by decide)
  have ask : Asks sampleFund Ids.fund sampleConfig.owner := ⟨fun hno => hno, rfl, rfl⟩
  have hbalance : principal sampleFund.extra = 1000 := principal_holding 1000 9
  have ok : FundOk sampleFund sampleConfig.owner ((State.new sampleConfig 50).observed 60) 1000 := by
    refine ⟨rfl, rfl, rfl, by decide, (principalValue_eq_some hwf).mpr hitems, by decide, ?_⟩
    rw [hbalance]
  have htime : sampleFund.context.blockTime = 60 := rfl
  unfold Step sampleFunded
  rw [htime]
  exact Act.fund ask ok

/-- The claim is accepted. -/
theorem step_sampleClaim : Step sampleClaim sampleFunded sampleClaimed
    (some (payment (sampleFunded.observed 150) sampleIndex 0 1 500)) := by
  have hfuel : ∃ c ∈ sampleClaim.extra.items,
      c.currencyId = shellCurrencyId ∧ (5 : U128) ≤ c.amount := by
    show ∃ c ∈ (holding 1000 9).items, c.currencyId = shellCurrencyId ∧ (5 : U128) ≤ c.amount
    rw [items_holding]
    decide
  have ask : Asks sampleClaim (payMethod 0) sampleStream.key := ⟨fun hno => hno, rfl, rfl⟩
  have hbalance : principal sampleClaim.extra = 1000 := principal_holding 1000 9
  have ok : PayOk sampleClaim sampleStream.key (sampleFunded.observed 150) sampleIndex 0 500 1 := by
    refine ⟨rfl, by decide, rfl, rfl, rfl, by rfl, by decide, ?_, hfuel, rfl⟩
    rw [hbalance]
    decide
  have htime : sampleClaim.context.blockTime = 150 := rfl
  have hlt : sampleClaim.context.blockLt = 2 := rfl
  have hact := Act.pay ask rfl ok
  rw [hlt] at hact
  unfold Step sampleClaimed
  rw [htime]
  exact hact

/-- A run of the contract: the principal and the claim. -/
theorem sampleRun : vesting.Runs sampleStart sampleCalls sampleClaimed.encode := by
  have hdeploy : sampleConfig.DeployableAt (sampleAccount 20) sampleStart.context.blockTime :=
    sampleConfig_deployable
  have hstart : vesting.Runs sampleStart [] (State.new sampleConfig 50).encode :=
    .start (starts_deployment hdeploy)
  have hnew := valid_new sampleConfig_deployable.valid 50
  have hfund := runs_step hstart hnew sampleFund_wellFormed (state_signedInput _ _ _ _) step_sampleFund
  exact runs_step hfund (step_sampleFund.valid hnew) sampleClaim_wellFormed
    (state_signedInput _ _ _ _) step_sampleClaim

end

/-! ### A longer history -/

/-- A message of a key to the account, which holds 500. -/
def sampleCall (lt : U64) (time : U32) (s : State) (key : Bytes32) (methodId : U64) : MessageInput :=
  signedInput ⟨lt, time, 0, zeros 32⟩ (holding 500 9) s.encode
    { pubkey := key
      destination := sampleAccount 20
      deploys := false
      methodId := methodId
      extra := .ofEntries []
      body := [0] }

/-- A callback of the account of a lane. -/
def sampleReturn (lane : U8) (createdLt : U64) (hash : U8) (statusCode : U32)
    (extra : List CurrencyAmount) (body : Bytes) : ReturnedCall where
  source := sampleAccount lane
  destination := sampleAccount 20
  methodId := Ids.callback
  createdLt := createdLt
  causeMsgHash := (sampleAddress hash).dappId
  statusCode := statusCode
  extra := .ofEntries extra
  body := body

/-- The message of a callback to the account. -/
def sampleAnswer (lt : U64) (s : State) (call : ReturnedCall) : MessageInput :=
  internalInput ⟨lt, 160, 0, zeros 32⟩ (holding 500 9) s.encode call.message

/-- The payment of the payee has arrived. -/
def sampleArrived : ReturnedCall := sampleReturn 21 3 41 0 [] (paymentBody 0 0 1 500)

/-- The state after the receipt. -/
def sampleSettled : State :=
  (sampleClaimed.observed 160).settled sampleIndex 0 3 (sampleAddress 41).dappId

/-- The state after a cancellation at the time 160. -/
def sampleCancelled : State := (sampleSettled.observed 160).cancelled sampleIndex 600

/-- The state after the rest was sent back. -/
def sampleRefunded : State := (sampleCancelled.observed 170).locked sampleIndex 1 400 2 5

/-- The refund has come back. -/
def sampleBounced : ReturnedCall := sampleReturn 22 6 42 7 [⟨principalCurrencyId, 400⟩] []

/-- The state after the return. -/
def sampleReleased : State :=
  (sampleRefunded.observed 160).released sampleIndex 1 6 (sampleAddress 42).dappId

/-- The state after a second refund. -/
def sampleRetried : State := (sampleReleased.observed 180).locked sampleIndex 1 400 3 7

/-- The messages after the claim. -/
def sampleMessages : List MessageInput :=
  [sampleAnswer 3 sampleClaimed sampleArrived,
    sampleCall 4 160 sampleSettled sampleConfig.owner Ids.cancel,
    sampleCall 5 170 sampleCancelled sampleConfig.owner Ids.refund,
    sampleAnswer 6 sampleRefunded sampleBounced,
    sampleCall 7 180 sampleReleased sampleConfig.owner Ids.refund]

section

variable [Target]

/-- A message of a key is well formed. -/
theorem sampleCall_wellFormed {lt : U64} {time : U32} {s : State} {key : Bytes32} {methodId : U64}
    (hkey : key ≠ zeros 32) : (sampleCall lt time s key methodId).WellFormed := by
  have hdestination : ¬ isZeroAddress (sampleAccount 20) := by decide
  refine signedInput_wellFormed
    ⟨hkey, hdestination, CurrencyAmounts.wellFormed_ofEntries_nil, Nat.lt_of_sub_eq_succ rfl⟩
    (wellFormed_holding 500 9) ?_
  rw [State.length_encode]
  decide

/-- A callback is well formed. -/
theorem sampleAnswer_wellFormed {lt : U64} {s : State} {call : ReturnedCall} (hcall : call.Sendable) :
    (sampleAnswer lt s call).WellFormed := by
  refine callbackInput_wellFormed hcall (wellFormed_holding 500 9) ?_
  rw [State.length_encode]
  decide

/-- The payment of the payee is settled. -/
theorem step_sampleSettled :
    Step (sampleAnswer 3 sampleClaimed sampleArrived) sampleClaimed sampleSettled none := by
  have hextra : sampleArrived.message.extra.items = [] :=
    CurrencyAmounts.items_ofEntries (Nat.two_pow_pos 16)
  refine .receipt returns_returnedCall
    ⟨by decide, rfl, rfl, by decide, rfl, by decide, by decide, by decide, by decide, by decide⟩
    ⟨rfl, ?_, by decide⟩
  rw [hextra]
  exact List.forall_mem_nil _

/-- The owner cancels the stream, of which 600 are earned. -/
theorem step_sampleCancelled :
    Step (sampleCall 4 160 sampleSettled sampleConfig.owner Ids.cancel) sampleSettled sampleCancelled
      none :=
  .cancel (i := sampleIndex) ⟨fun hno => hno, rfl, rfl⟩ rfl
    ⟨rfl, by decide, rfl, rfl, rfl, rfl, by decide, by decide⟩

/-- A refund of 400, in a state where this is due. -/
theorem step_refund {lt : U64} {time : U32} {nonce : U64} {before : State}
    (hconfig : before.config = sampleConfig) (hfunded : before.funded = true)
    (hidle : ((before.progress sampleIndex).lanes 1).pending = 0)
    (hdue : (before.observed time).due sampleIndex 1 (before.observed time).lastTime = .ok 400)
    (hheld : before.heldAmount ≤ 500) (hnonce : before.nonce.toNat + 1 = nonce.toNat) :
    Step (sampleCall lt time before sampleConfig.owner Ids.refund) before
      ((before.observed time).locked sampleIndex 1 400 nonce lt)
      (some (payment (before.observed time) sampleIndex 1 nonce 400)) := by
  have ok : PayOk (sampleCall lt time before sampleConfig.owner Ids.refund) sampleConfig.owner
      (before.observed time) sampleIndex 1 400 nonce := by
    refine ⟨rfl, ?_, hfunded, ?_, hidle, hdue, by decide, ?_, ?_, hnonce⟩
    · show before.config.Active sampleIndex
      rw [hconfig]
      decide
    · show before.config.signer sampleIndex 1 = _
      rw [hconfig]
      rfl
    · show before.heldAmount ≤ (principal (holding 500 9)).toNat
      rw [principal_holding]
      exact hheld
    · show ∃ c ∈ (holding 500 9).items, c.currencyId = shellCurrencyId ∧ before.config.fuel ≤ c.amount
      rw [items_holding, hconfig]
      decide
  exact Act.pay (k := 1) ⟨fun hno => hno, rfl, rfl⟩ rfl ok

/-- The rest is sent back, -/
theorem step_sampleRefunded :
    Step (sampleCall 5 170 sampleCancelled sampleConfig.owner Ids.refund) sampleCancelled sampleRefunded
      (some (payment (sampleCancelled.observed 170) sampleIndex 1 2 400)) :=
  step_refund rfl rfl rfl (by rfl) (by decide) rfl

/-- and once more when it was returned. -/
theorem step_sampleRetried :
    Step (sampleCall 7 180 sampleReleased sampleConfig.owner Ids.refund) sampleReleased sampleRetried
      (some (payment (sampleReleased.observed 180) sampleIndex 1 3 400)) :=
  step_refund rfl rfl rfl (by rfl) (by decide) rfl

/-- The refund comes back. -/
theorem step_sampleReleased :
    Step (sampleAnswer 6 sampleRefunded sampleBounced) sampleRefunded sampleReleased none := by
  have hextra : sampleBounced.message.extra.items = [⟨principalCurrencyId, 400⟩] :=
    CurrencyAmounts.items_ofEntries (by decide)
  refine .bounce returns_returnedCall
    ⟨by decide, rfl, rfl, by decide, rfl, by decide, by decide, by decide, by decide, by decide⟩
    ⟨by decide, ?_, ?_, rfl⟩
  · rw [hextra]
    decide
  · rw [hextra]
    decide

/-- The states of the history are valid. -/
theorem valid_samples : sampleClaimed.Valid ∧ sampleSettled.Valid ∧ sampleCancelled.Valid ∧
    sampleRefunded.Valid ∧ sampleReleased.Valid := by
  have hnew := valid_new sampleConfig_deployable.valid 50
  have hclaimed := step_sampleClaim.valid (step_sampleFund.valid hnew)
  have hsettled := step_sampleSettled.valid hclaimed
  have hcancelled := step_sampleCancelled.valid hsettled
  have hrefunded := step_sampleRefunded.valid hcancelled
  exact ⟨hclaimed, hsettled, hcancelled, hrefunded, step_sampleReleased.valid hrefunded⟩

/-- The calls of the longer history. -/
def sampleHistory : List Call :=
  sampleCalls ++ sampleMessages.map fun x => ⟨x, vesting.processMessage x⟩

/-- A run of the contract: a payment that arrived, a cancellation, and a refund that came back. -/
theorem sampleHistoryRun : vesting.Runs sampleStart sampleHistory sampleRetried.encode := by
  obtain ⟨hclaimed, hsettled, hcancelled, hrefunded, hreleased⟩ := valid_samples
  have hlanes : ¬ isZeroAddress (sampleAccount 21) ∧ ¬ isZeroAddress (sampleAccount 22) := by decide
  have haccount : ¬ isZeroAddress (sampleAccount 20) := by decide
  have howner : sampleConfig.owner ≠ zeros 32 := by decide
  have hwfArrived : (sampleAnswer 3 sampleClaimed sampleArrived).WellFormed :=
    sampleAnswer_wellFormed ⟨hlanes.1, haccount, by decide, by decide, fun hno => absurd rfl hno,
      CurrencyAmounts.wellFormed_ofEntries_nil, by decide⟩
  have hwfBounced : (sampleAnswer 6 sampleRefunded sampleBounced).WellFormed :=
    sampleAnswer_wellFormed ⟨hlanes.2, haccount, by decide, by decide, fun _ => rfl,
      CurrencyAmounts.wellFormed_ofEntries (by decide) (by decide), by decide⟩
  have hrunSettled := runs_step sampleRun hclaimed hwfArrived rfl step_sampleSettled
  have hrunCancelled := runs_step hrunSettled hsettled (sampleCall_wellFormed howner) rfl
    step_sampleCancelled
  have hrunRefunded := runs_step hrunCancelled hcancelled (sampleCall_wellFormed howner) rfl
    step_sampleRefunded
  have hrunReleased := runs_step hrunRefunded hrefunded hwfBounced rfl step_sampleReleased
  exact runs_step hrunReleased hreleased (sampleCall_wellFormed howner) rfl step_sampleRetried

/-- The history has a payment that arrived, a cancellation, a refund that came back, and a refund
that was sent. -/
theorem sampleHistory_accepts : (∃ c ∈ sampleHistory, c.AcceptedReceipt) ∧
    (∃ c ∈ sampleHistory, c.AcceptedBounce) ∧ (∃ c ∈ sampleHistory, c.AcceptedMethod Ids.cancel) ∧
      ∃ c ∈ sampleHistory, c.AcceptedMethod Ids.refund := by
  obtain ⟨hclaimed, hsettled, -, hrefunded, hreleased⟩ := valid_samples
  have hmem {x : MessageInput} (hx : x ∈ sampleMessages) :
      Call.mk x (vesting.processMessage x) ∈ sampleHistory :=
    List.mem_append_right _ (List.mem_map_of_mem hx)
  have hstatus : sampleBounced.statusCode ≠ 0 := by decide
  refine ⟨⟨_, hmem (by simp [sampleMessages]),
    acceptedReceipt_of_returned (accepted_of_step hclaimed rfl step_sampleSettled) rfl rfl⟩, ?_, ?_, ?_⟩
  · exact ⟨_, hmem (by simp [sampleMessages]),
      acceptedBounce_of_returned (accepted_of_step hrefunded rfl step_sampleReleased) rfl hstatus⟩
  · exact ⟨_, hmem (by simp [sampleMessages]), accepted_of_step hsettled rfl step_sampleCancelled,
      fun hno => hno, rfl⟩
  · exact ⟨_, hmem (by simp [sampleMessages]), accepted_of_step hreleased rfl step_sampleRetried,
      fun hno => hno, rfl⟩

end

end AvmSdk.Vesting
