import AvmSdk.Contracts.Hub.Machine
import AvmSdk.Sdk.Input.Signed
import AvmSdk.Sdk.Output.Gate

/-!
# Deploying and using a vault

Every valid configuration can be deployed by any of its signers, and every step can be taken.

* `deployment`, `starts_deployment`: the deployment of a configuration.
* `runs_step`: a run goes on with any step.
* `sampleRun`: a vault with two members, after a deposit and a claim. `sampleHistoryRun`: the same
  vault, after a payment that arrived, one that came back, a second try, and a pause that was proposed,
  voted for and executed.
-/

namespace AvmSdk.Hub

open Wire Sdk Contracts

/-- The deployment of a configuration at an address, signed by a key. -/
def deployment (context : ExecutionContext) (config : Config) (vault : AccountAddress)
    (key : Bytes32) : MessageInput :=
  signedInput context (.ofEntries []) []
    { pubkey := key
      destination := vault
      deploys := true
      methodId := 0
      extra := .ofEntries []
      body := deployBody config.encode }

/-- What a configuration must satisfy at an address. -/
structure Config.DeployableAt (config : Config) (vault : AccountAddress) : Prop where
  valid : config.Valid
  vault_ne_zero : ¬ isZeroAddress vault
  members : ∀ i, i.val < config.count.toNat → (config.members i).destination ≠ vault ∧
    (config.members i).destination.dappId = vault.dappId

section

variable [Target] {context : ExecutionContext} {config : Config} {vault : AccountAddress}
  {start x : MessageInput} {calls : List Call} {s t : State} {o : Option Transfer}

/-- The deployment of a vault is well formed. -/
theorem deployment_wellFormed (h : config.DeployableAt vault) (signer : Fin 3) :
    (deployment context config vault (config.signers signer)).WellFormed := by
  refine signedInput_wellFormed ⟨h.valid.signers_ne_zero signer, h.vault_ne_zero,
    CurrencyAmounts.wellFormed_ofEntries_nil, ?_⟩ CurrencyAmounts.wellFormed_ofEntries_nil
    (Nat.two_pow_pos 32)
  show (deployBody config.encode).length < 2 ^ 31
  rw [length_deployBody, Config.length_encode]
  decide

/-- The configuration of a deployment. -/
theorem deploy_deployment (key : Bytes32) :
    (deployment context config vault key).deploy =
      .ok ⟨zeros 32, zeros 32, [], [], config.encode⟩ := by
  refine deploy_signedInput rfl rfl ?_
  rw [Config.length_encode]
  decide

/-- **A valid configuration** can be deployed by each of its signers. -/
theorem starts_deployment (h : config.DeployableAt vault) (signer : Fin 3) :
    revenueVault.Starts (deployment context config vault (config.signers signer))
      (State.new config).encode := by
  obtain ⟨e, he⟩ := (stored_new h.valid).valid.exists_finish "hub.created" 255 0 ⟨_, rfl⟩
  have hdecode : Config.decode config.encode = .ok config :=
    Config.decode_ok_iff.mpr ⟨rfl, h.valid⟩
  have hsigner : ∃ i, config.signer (config.signers signer) = .ok i := by
    have hfound :
        ((List.finRange 3).find? fun i => config.signers i = config.signers signer).isSome := by
      rw [List.find?_isSome]
      exact ⟨signer, List.mem_finRange signer, decide_eq_true rfl⟩
    obtain ⟨i, hi⟩ := Option.isSome_iff_exists.mp hfound
    exact ⟨i, okOr_ok_iff.mpr hi⟩
  obtain ⟨i, hi⟩ := hsigner
  have hinit : initializeVault (deployment context config vault (config.signers signer)) =
      .ok (announced (State.new config).encode e) := by
    simp only [initializeVault, deploy_deployment, bind_ok_iff, mapError_ok_iff]
    refine ⟨_, rfl, config, hdecode, ?_⟩
    show (config.signer (config.signers signer) >>= _) = _
    simp only [bind_ok_iff, failIf_ok_iff, exists_const]
    refine ⟨i, hi, ?_, (), ?_, he⟩
    · rintro (hstate | ⟨j, hj, hno⟩)
      · exact hstate rfl
      · obtain ⟨hne, hdapp⟩ := h.members j (mem_firstIndices.mp hj)
        exact hno.elim (fun heq => hne heq) fun hdapp' => hdapp' hdapp
    · exact failIf_ok_iff.mpr (not_not.mpr rfl)
  have hout : revenueVault.init (deployment context config vault (config.signers signer)) =
      announced (State.new config).encode e := by
    show orFailure (initializeVault _) = _
    rw [hinit]
    rfl
  refine ⟨deployment_wellFormed h signer, ?_, ?_⟩
  · rw [hout]
    rfl
  · rw [hout]
    rfl

/-- **A run goes on** with any step. -/
theorem runs_step (hrun : revenueVault.Runs start calls s.encode) (hs : s.Stored)
    (hwf : x.WellFormed) (hstate : x.state = s.encode) (hstep : Step x s t o) :
    revenueVault.Runs start (calls ++ [⟨x, revenueVault.processMessage x⟩]) t.encode := by
  obtain ⟨e, he⟩ := processMessage_of_step hs hstate hstep
  exact runs_of_answer hrun hwf hstate he

/-- A step is an accepted call. -/
theorem accepted_of_step (hs : s.Stored) (hstate : x.state = s.encode) (hstep : Step x s t o) :
    Call.Accepted ⟨x, revenueVault.processMessage x⟩ := by
  obtain ⟨e, he⟩ := processMessage_of_step hs hstate hstep
  exact accepted_of_answer he

end

/-! ## A vault with two members -/

/-- The string of 32 equal bytes. -/
def sampleKey (byte : U8) : Bytes32 := (sampleAddress byte).dappId

/-- An account of one application. -/
def sampleAccount (byte : U8) : AccountAddress := ⟨sampleKey 1, sampleKey byte⟩

/-- Two members with shares of 60 and 40 per cent. -/
def sampleConfig : Config where
  signers i := sampleKey (BitVec.ofNat 8 (i.val + 1))
  count := 2
  delay := 10
  voteWindow := 20
  initialFuel := 5
  members i :=
    if i.val = 0 then ⟨sampleKey 11, sampleAccount 21, 6000⟩
    else if i.val = 1 then ⟨sampleKey 12, sampleAccount 22, 4000⟩
    else Member.default

/-- The configuration can be deployed at an account. -/
theorem sampleConfig_deployable : sampleConfig.DeployableAt (sampleAccount 20) := by
  have hactive (i : Fin maxMembers) (hi : i.val < sampleConfig.count.toNat) : i = 0 ∨ i = 1 := by
    have hlt : i.val < 2 := hi
    have hcases : i.val = 0 ∨ i.val = 1 := by omega
    exact hcases.imp Fin.ext Fin.ext
  have hpair (i j : Fin maxMembers) (hi : i.val < sampleConfig.count.toNat) (hj : j < i) :
      i = 1 ∧ j = 0 := by
    have hlt : j.val < i.val := hj
    rcases hactive i hi with rfl | rfl
    · exact absurd hlt (Nat.not_lt_zero _)
    · exact ⟨rfl, Fin.ext (Nat.lt_one_iff.mp hlt)⟩
  refine ⟨⟨by decide, by decide, by decide, by decide, by decide, by decide, by decide, ?_, ?_, ?_,
    ?_, ?_, ?_, by decide⟩, by decide, ?_⟩
  · intro i hi
    rcases hactive i hi with rfl | rfl <;> decide
  · intro i hi
    rcases hactive i hi with rfl | rfl <;> decide
  · intro i hi
    rcases hactive i hi with rfl | rfl <;> decide
  · intro i j hi hj
    obtain ⟨rfl, rfl⟩ := hpair i j hi hj
    decide
  · intro i j hi hj
    obtain ⟨rfl, rfl⟩ := hpair i j hi hj
    decide
  · intro i hi
    have hle : 2 ≤ i.val := hi
    show (if i.val = 0 then _ else if i.val = 1 then _ else Member.default) = Member.default
    rw [if_neg (by omega), if_neg (by omega)]
  · intro i hi
    rcases hactive i hi with rfl | rfl <;> decide

/-- The deployment of the configuration by its first signer. -/
def sampleStart : MessageInput := deployment ⟨0, 0, 0, zeros 32⟩ sampleConfig (sampleAccount 20)
  (sampleConfig.signers 0)

/-- What the account holds. -/
def sampleBalance : CurrencyAmounts := holding 1000 9

/-- A deposit of 1000. -/
def sampleDeposit : MessageInput :=
  signedInput ⟨1, 0, 0, zeros 32⟩ sampleBalance (State.new sampleConfig).encode
    { pubkey := sampleKey 30
      destination := sampleAccount 20
      deploys := false
      methodId := Ids.deposit
      extra := .ofEntries [⟨principalCurrencyId, 1000⟩]
      body := [] }

/-- The ledger after the deposit. -/
def sampleFunded : State := (State.new sampleConfig).deposited 1000

/-- A claim of the first member. -/
def sampleClaim : MessageInput :=
  signedInput ⟨2, 0, 0, zeros 32⟩ sampleBalance sampleFunded.encode
    { pubkey := sampleKey 11
      destination := sampleAccount 20
      deploys := false
      methodId := Ids.claim
      extra := .ofEntries []
      body := [0] }

/-- The ledger after the claim. -/
def sampleClaimed : State := sampleFunded.locked (memberIndex 0) 1 2

section

variable [Target]

/-- The deposit and the claim. -/
def sampleCalls : List Call :=
  [⟨sampleDeposit, revenueVault.processMessage sampleDeposit⟩,
    ⟨sampleClaim, revenueVault.processMessage sampleClaim⟩]

/-- The deposit is well formed, -/
theorem sampleDeposit_wellFormed : sampleDeposit.WellFormed := by
  refine signedInput_wellFormed ⟨by decide, by decide,
    CurrencyAmounts.wellFormed_ofEntries (by decide) (by decide), by decide⟩
    (wellFormed_holding 1000 9) ?_
  rw [State.length_encode]
  decide

/-- and so is the claim. -/
theorem sampleClaim_wellFormed : sampleClaim.WellFormed := by
  refine signedInput_wellFormed ⟨by decide, by decide, CurrencyAmounts.wellFormed_ofEntries_nil,
    by decide⟩ (wellFormed_holding 1000 9) ?_
  rw [State.length_encode]
  decide

/-- The deposit is accepted. -/
theorem step_sampleDeposit : Step sampleDeposit (State.new sampleConfig) sampleFunded none := by
  have hitems : sampleDeposit.message.extra.items = [⟨principalCurrencyId, 1000⟩] :=
    CurrencyAmounts.items_ofEntries (by decide)
  have hprincipal : principal sampleDeposit.message.extra = 1000 := by
    rw [principal, hitems]
    rfl
  have hheld : principal sampleDeposit.extra = 1000 := principal_holding 1000 9
  have ask : Asks sampleDeposit Ids.deposit (sampleKey 30) := ⟨fun hno => hno, rfl, rfl⟩
  refine .deposit ask ⟨rfl, rfl, ?_, ?_, ?_, ?_⟩
  · rw [hitems]
    decide
  · rw [hprincipal]
    decide
  · rw [hprincipal, hheld]
    decide
  · rw [hprincipal]
    rfl

omit [Target] in
/-- The first member can claim 600. -/
theorem claimable_sampleFunded : (sampleFunded.members 0).claimable = 600 := by decide

/-- The claim is well founded, -/
theorem sampleClaim_ok : ClaimOk sampleClaim (sampleKey 11) sampleFunded 0 1 := by
  have hheld : principal sampleClaim.extra = 1000 := principal_holding 1000 9
  have hfuel : ∃ c ∈ sampleClaim.extra.items, c.currencyId = 2 ∧ sampleFunded.fuelLimit ≤ c.amount := by
    have hbalance : sampleClaim.extra.items =
        [⟨principalCurrencyId, 1000⟩, ⟨shellCurrencyId, 9⟩] := items_holding 1000 9
    rw [hbalance]
    decide
  refine ⟨rfl, by decide, rfl, rfl, rfl, ?_, ?_, hfuel, rfl⟩
  · rw [claimable_sampleFunded]
    decide
  · rw [hheld]
    decide

/-- and is accepted. -/
theorem step_sampleClaim : Step sampleClaim sampleFunded sampleClaimed
    (some (payment sampleFunded 0 1 600)) := by
  have ask : Asks sampleClaim Ids.claim (sampleKey 11) := ⟨fun hno => hno, rfl, rfl⟩
  have hstep := Step.claim ask rfl sampleClaim_ok
  rw [claimable_sampleFunded] at hstep
  exact hstep

/-- A run of the vault: the deposit, -/
theorem sampleFundedRun : revenueVault.Runs sampleStart
    [⟨sampleDeposit, revenueVault.processMessage sampleDeposit⟩] sampleFunded.encode :=
  runs_step (.start (starts_deployment sampleConfig_deployable 0))
    (stored_new sampleConfig_deployable.valid) sampleDeposit_wellFormed rfl step_sampleDeposit

/-- which is stored, -/
theorem sampleFunded_stored : sampleFunded.Stored :=
  step_sampleDeposit.stored (stored_new sampleConfig_deployable.valid)

/-- and the claim. -/
theorem sampleRun : revenueVault.Runs sampleStart sampleCalls sampleClaimed.encode :=
  runs_step sampleFundedRun sampleFunded_stored sampleClaim_wellFormed rfl step_sampleClaim

end

/-! ### A longer history -/

/-- A message of a key, which brings nothing. -/
def sampleCall (lt : U64) (time : U32) (held : U128) (s : State) (key : Bytes32) (methodId : U64)
    (body : Bytes) : MessageInput :=
  signedInput ⟨lt, time, 0, zeros 32⟩ (holding held 9) s.encode
    { pubkey := key
      destination := sampleAccount 20
      deploys := false
      methodId := methodId
      extra := .ofEntries []
      body := body }

/-- A callback of a member. -/
def sampleReturn (member : U8) (createdLt : U64) (hash : U8) (statusCode : U32)
    (extra : List CurrencyAmount) (body : Bytes) : ReturnedCall where
  source := sampleAccount member
  destination := sampleAccount 20
  methodId := Ids.callback
  createdLt := createdLt
  causeMsgHash := sampleKey hash
  statusCode := statusCode
  extra := .ofEntries extra
  body := body

/-- The message of a callback to the account. -/
def sampleAnswer (lt : U64) (held : U128) (s : State) (call : ReturnedCall) : MessageInput :=
  internalInput ⟨lt, 0, 0, zeros 32⟩ (holding held 9) s.encode call.message

/-- The payment of the first member has arrived. -/
def sampleArrived : ReturnedCall := sampleReturn 21 3 41 0 [] (paymentBody 0 1 600)

/-- The ledger after the receipt. -/
def sampleSettled : State := sampleClaimed.settled (memberIndex 0) 3 (sampleKey 41)

/-- The ledger after a claim of the second member. -/
def sampleSecond : State := sampleSettled.locked (memberIndex 1) 2 4

/-- The payment of the second member has come back. -/
def sampleBounced : ReturnedCall := sampleReturn 22 5 42 7 [⟨principalCurrencyId, 400⟩] []

/-- The ledger after the return. -/
def sampleReleased : State := sampleSecond.released (memberIndex 1) 5 (sampleKey 42)

/-- The ledger after another claim of the second member. -/
def sampleThird : State := sampleReleased.locked (memberIndex 1) 3 6

/-- A pause. -/
def sampleProposal : Proposal := ⟨1, pause, voteBit 0, 0, 0, 10, 30⟩

/-- The ledger after the proposal. -/
def sampleProposed : State := sampleThird.proposed sampleProposal

/-- The ledger after a vote of the second signer. -/
def sampleVoted : State := sampleProposed.voted 1

/-- The ledger after the proposal took effect. -/
def samplePaused : State := sampleVoted.executed

/-- The messages after the first claim. -/
def sampleMessages : List MessageInput :=
  [sampleAnswer 3 400 sampleClaimed sampleArrived,
    sampleCall 4 0 400 sampleSettled (sampleKey 12) Ids.claim [1],
    sampleAnswer 5 400 sampleSecond sampleBounced,
    sampleCall 6 0 400 sampleReleased (sampleKey 12) Ids.claim [1],
    sampleCall 7 0 0 sampleThird (sampleKey 1) Ids.propose sampleProposal.body,
    sampleCall 8 5 0 sampleProposed (sampleKey 2) Ids.vote sampleProposal.body,
    sampleCall 9 15 0 sampleVoted (sampleKey 30) Ids.execute (toLe (1 : U64))]

section

variable [Target]

/-- A message of a key is well formed. -/
theorem sampleCall_wellFormed {lt : U64} {time : U32} {held : U128} {s : State} {key : Bytes32}
    {methodId : U64} {body : Bytes} (hkey : key ≠ zeros 32) (hbody : body.length < 2 ^ 31) :
    (sampleCall lt time held s key methodId body).WellFormed := by
  have hdestination : ¬ isZeroAddress (sampleAccount 20) := by decide
  refine signedInput_wellFormed
    ⟨hkey, hdestination, CurrencyAmounts.wellFormed_ofEntries_nil, hbody⟩
    (wellFormed_holding held 9) ?_
  rw [State.length_encode]
  decide

/-- A callback is well formed. -/
theorem sampleAnswer_wellFormed {lt : U64} {held : U128} {s : State} {call : ReturnedCall}
    (hcall : call.Sendable) : (sampleAnswer lt held s call).WellFormed := by
  refine callbackInput_wellFormed hcall (wellFormed_holding held 9) ?_
  rw [State.length_encode]
  decide

/-- The first payment is settled. -/
theorem step_sampleSettled :
    Step (sampleAnswer 3 400 sampleClaimed sampleArrived) sampleClaimed sampleSettled none := by
  have hextra : sampleArrived.message.extra.items = [] :=
    CurrencyAmounts.items_ofEntries (Nat.two_pow_pos 16)
  refine .receipt returns_returnedCall
    ⟨by decide, rfl, by decide, rfl, rfl, by decide, by decide, by decide, by decide, by decide, ?_⟩
    ⟨rfl, ?_, by decide⟩
  · rw [hextra]
    exact List.forall_mem_nil _
  · rw [hextra]
    exact List.forall_mem_nil _

/-- A claim of the second member, in a state where it can claim 400. -/
theorem step_claimOfSecond {lt : U64} {nonce : U64} {before : State} (hconfig : before.config = sampleConfig)
    (hpaused : before.paused = false) (hpending : (before.members 1).pending = 0)
    (hclaimable : (before.members 1).claimable = 400) (hheld : before.heldAmount ≤ 400)
    (hfuel : before.fuelLimit = 5) (hnonce : before.claimNonce.toNat + 1 = nonce.toNat) :
    Step (sampleCall lt 0 400 before (sampleKey 12) Ids.claim [1]) before (before.locked 1 nonce lt)
      (some (payment before 1 nonce 400)) := by
  have ok : ClaimOk (sampleCall lt 0 400 before (sampleKey 12) Ids.claim [1]) (sampleKey 12) before 1
      nonce := by
    refine ⟨rfl, ?_, ?_, hpaused, hpending, ?_, ?_, ?_, hnonce⟩
    · rw [hconfig]
      decide
    · rw [hconfig]
      rfl
    · rw [hclaimable]
      decide
    · show before.heldAmount ≤ (principal (holding 400 9)).toNat
      rw [principal_holding]
      exact hheld
    · show ∃ c ∈ (holding 400 9).items, c.currencyId = 2 ∧ before.fuelLimit ≤ c.amount
      rw [items_holding, hfuel]
      decide
  have hstep := Step.claim (x := sampleCall lt 0 400 before (sampleKey 12) Ids.claim [1])
    ⟨fun hno => hno, rfl, rfl⟩ rfl ok
  rw [hclaimable] at hstep
  exact hstep

/-- The second member claims, -/
theorem step_sampleSecond : Step (sampleCall 4 0 400 sampleSettled (sampleKey 12) Ids.claim [1])
    sampleSettled sampleSecond (some (payment sampleSettled 1 2 400)) :=
  step_claimOfSecond rfl rfl rfl (by decide) (by decide) rfl rfl

/-- and once more when the payment came back. -/
theorem step_sampleThird : Step (sampleCall 6 0 400 sampleReleased (sampleKey 12) Ids.claim [1])
    sampleReleased sampleThird (some (payment sampleReleased 1 3 400)) :=
  step_claimOfSecond rfl rfl rfl (by decide) (by decide) rfl rfl

/-- The second payment comes back. -/
theorem step_sampleReleased :
    Step (sampleAnswer 5 400 sampleSecond sampleBounced) sampleSecond sampleReleased none := by
  have hextra : sampleBounced.message.extra.items = [⟨principalCurrencyId, 400⟩] :=
    CurrencyAmounts.items_ofEntries (by decide)
  refine .bounce returns_returnedCall
    ⟨by decide, rfl, by decide, rfl, rfl, by decide, by decide, by decide, by decide, by decide, ?_⟩
    ⟨by decide, ?_, rfl⟩
  · rw [hextra]
    decide
  · rw [principal, hextra]
    decide

/-- The proposal is accepted, -/
theorem step_sampleProposed :
    Step (sampleCall 7 0 0 sampleThird (sampleKey 1) Ids.propose sampleProposal.body) sampleThird
      sampleProposed none := by
  refine .propose ⟨fun hno => hno, rfl, rfl⟩ rfl (?_ : ProposeOk _ _ _ 0 sampleProposal)
  exact ⟨rfl, ⟨by decide, by decide, by decide⟩, rfl, fun hno => absurd rfl hno, rfl, rfl, rfl, rfl,
    rfl⟩

/-- the vote as well, -/
theorem step_sampleVoted :
    Step (sampleCall 8 5 0 sampleProposed (sampleKey 2) Ids.vote sampleProposal.body) sampleProposed
      sampleVoted none := by
  refine .vote ⟨fun hno => hno, rfl, rfl⟩ rfl (?_ : VoteOk _ _ _ 1)
  exact ⟨rfl, by decide, rfl, by decide, by decide⟩

/-- and the proposal takes effect. -/
theorem step_samplePaused :
    Step (sampleCall 9 15 0 sampleVoted (sampleKey 30) Ids.execute (toLe (1 : U64))) sampleVoted
      samplePaused none :=
  .execute ⟨fun hno => hno, rfl, rfl⟩ rfl ⟨by decide, rfl, by decide, by decide, by decide⟩

/-- The ledgers of the history are stored. -/
theorem stored_samples : sampleClaimed.Stored ∧ sampleSettled.Stored ∧ sampleSecond.Stored ∧
    sampleReleased.Stored ∧ sampleThird.Stored ∧ sampleProposed.Stored ∧ sampleVoted.Stored := by
  have hclaimed := step_sampleClaim.stored sampleFunded_stored
  have hsettled := step_sampleSettled.stored hclaimed
  have hsecond := step_sampleSecond.stored hsettled
  have hreleased := step_sampleReleased.stored hsecond
  have hthird := step_sampleThird.stored hreleased
  have hproposed := step_sampleProposed.stored hthird
  exact ⟨hclaimed, hsettled, hsecond, hreleased, hthird, hproposed, step_sampleVoted.stored hproposed⟩

/-- The calls of the longer history. -/
def sampleHistory : List Call :=
  sampleCalls ++ sampleMessages.map fun x => ⟨x, revenueVault.processMessage x⟩

/-- A run of the vault: payments in both directions, and a pause. -/
theorem sampleHistoryRun : revenueVault.Runs sampleStart sampleHistory samplePaused.encode := by
  obtain ⟨hclaimed, hsettled, hsecond, hreleased, hthird, hproposed, hvoted⟩ := stored_samples
  have hmember : ¬ isZeroAddress (sampleAccount 21) ∧ ¬ isZeroAddress (sampleAccount 22) := by decide
  have hvault : ¬ isZeroAddress (sampleAccount 20) := by decide
  have hwfArrived : (sampleAnswer 3 400 sampleClaimed sampleArrived).WellFormed :=
    sampleAnswer_wellFormed ⟨hmember.1, hvault, by decide, by decide, fun hno => absurd rfl hno,
      CurrencyAmounts.wellFormed_ofEntries_nil, by decide⟩
  have hwfBounced : (sampleAnswer 5 400 sampleSecond sampleBounced).WellFormed :=
    sampleAnswer_wellFormed ⟨hmember.2, hvault, by decide, by decide, fun _ => rfl,
      CurrencyAmounts.wellFormed_ofEntries (by decide) (by decide), by decide⟩
  have hrunSettled := runs_step sampleRun hclaimed hwfArrived rfl step_sampleSettled
  have hrunSecond := runs_step hrunSettled hsettled
    (sampleCall_wellFormed (by decide) (by decide)) rfl step_sampleSecond
  have hrunReleased := runs_step hrunSecond hsecond hwfBounced rfl step_sampleReleased
  have hrunThird := runs_step hrunReleased hreleased
    (sampleCall_wellFormed (by decide) (by decide)) rfl step_sampleThird
  have hrunProposed := runs_step hrunThird hthird
    (sampleCall_wellFormed (by decide) (by decide)) rfl step_sampleProposed
  have hrunVoted := runs_step hrunProposed hproposed
    (sampleCall_wellFormed (by decide) (by decide)) rfl step_sampleVoted
  exact runs_step hrunVoted hvoted (sampleCall_wellFormed (by decide) (by decide)) rfl
    step_samplePaused

/-- The history has a payment that arrived, one that came back, and a proposal that took effect. -/
theorem sampleHistory_accepts : (∃ c ∈ sampleHistory, c.AcceptedReceipt) ∧
    (∃ c ∈ sampleHistory, c.AcceptedBounce) ∧
      ∃ c ∈ sampleHistory, c.AcceptedMethod Ids.execute := by
  obtain ⟨hclaimed, -, hsecond, -, -, -, hvoted⟩ := stored_samples
  have hmem {x : MessageInput} (hx : x ∈ sampleMessages) :
      Call.mk x (revenueVault.processMessage x) ∈ sampleHistory :=
    List.mem_append_right _ (List.mem_map_of_mem hx)
  have hstatus : sampleBounced.statusCode ≠ 0 := by decide
  refine ⟨⟨_, hmem (by simp [sampleMessages]),
    acceptedReceipt_of_returned (accepted_of_step hclaimed rfl step_sampleSettled) rfl rfl⟩, ?_, ?_⟩
  · exact ⟨_, hmem (by simp [sampleMessages]),
      acceptedBounce_of_returned (accepted_of_step hsecond rfl step_sampleReleased) rfl hstatus⟩
  · exact ⟨_, hmem (by simp [sampleMessages]), accepted_of_step hvoted rfl step_samplePaused,
      fun hno => hno, rfl⟩

end

end AvmSdk.Hub
