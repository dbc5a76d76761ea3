import AvmSdk.Contracts.Hub.Vault

/-!
# What a call of the vault can do

* `Step input s t transfer`: an accepted call with this input leads from `s` to `t` and emits the
  transfer. One constructor a method, with all the conditions that the method checks, in exact
  numbers; callbacks have two.
* `Step.valid`: every step keeps the state valid.
* `process_ok_iff`: the message handler succeeds exactly when there is a step, and stores the state
  that the step leads to. No check of the result ever stops a permitted operation.
-/

namespace AvmSdk.Hub

open Wire Sdk Contracts

section

variable [Target]

/-- The message brings SHELL and nothing else. -/
structure TopupOk (x : MessageInput) : Prop where
  body : x.message.body = []
  some : ¬ x.message.extra.isEmpty
  fees : ∀ c ∈ x.message.extra.items, c.currencyId = 2 ∧ c.amount ≠ 0

/-- The message brings principal that the account really holds. -/
structure DepositOk (x : MessageInput) (s : State) (next : U128) : Prop where
  body : x.message.body = []
  running : s.paused = false
  currencies : ∀ c ∈ x.message.extra.items,
    (c.currencyId = principalCurrencyId ∨ c.currencyId = shellCurrencyId) ∧ c.amount ≠ 0
  some : principal x.message.extra ≠ 0
  balance : s.heldAmount + (principal x.message.extra).toNat ≤ (principal x.extra).toNat
  next_eq : s.received.toNat + (principal x.message.extra).toNat = next.toNat

/-- The message asks for the balance of its signer. -/
structure ClaimOk (x : MessageInput) (actor : Bytes32) (s : State) (i : Fin maxMembers)
    (nonce : U64) : Prop where
  body : x.message.body = [BitVec.ofNat 8 i.val]
  index_lt : i.val < s.config.count.toNat
  key : (s.config.members i).key = actor
  running : s.paused = false
  idle : (s.members i).pending = 0
  some : (s.members i).claimable ≠ 0
  balance : s.heldAmount ≤ (principal x.extra).toNat
  fuel : ∃ c ∈ x.extra.items, c.currencyId = 2 ∧ s.fuelLimit ≤ c.amount
  nonce_eq : s.claimNonce.toNat + 1 = nonce.toNat

/-- The message proposes something new, and no proposal is open. -/
structure ProposeOk (x : MessageInput) (actor : Bytes32) (s : State) (signer : Fin 3)
    (p : Proposal) : Prop where
  signer_eq : s.config.signers signer = actor
  proposes : Proposal.Proposes p.nonce p.action p.value
  body : x.message.body = p.body
  closed : s.proposal.nonce ≠ 0 → s.proposal.expires ≤ x.context.blockTime
  nonce_eq : s.proposalNonce.toNat + 1 = p.nonce.toNat
  votes_eq : p.votes = voteBit signer
  created_eq : p.created = x.context.blockTime
  ready_eq : x.context.blockTime.toNat + s.config.delay.toNat = p.ready.toNat
  expires_eq : p.ready.toNat + s.config.voteWindow.toNat = p.expires.toNat

/-- The message repeats the open proposal, and its signer has not voted yet. -/
structure VoteOk (x : MessageInput) (actor : Bytes32) (s : State) (signer : Fin 3) : Prop where
  signer_eq : s.config.signers signer = actor
  stored : s.proposal.nonce ≠ 0
  body : x.message.body = s.proposal.body
  not_expired : x.context.blockTime < s.proposal.expires
  fresh : s.proposal.votes &&& voteBit signer = 0

/-- The message names the open proposal, which has its votes and its time. -/
structure ExecuteOk (x : MessageInput) (s : State) : Prop where
  stored : s.proposal.nonce ≠ 0
  body : x.message.body = toLe s.proposal.nonce
  not_expired : x.context.blockTime < s.proposal.expires
  quorum : 2 ≤ countOnes s.proposal.votes
  ready : s.proposal.ready ≤ x.context.blockTime

/-- The message answers the open claim of a member. -/
structure CallbackOk (x : MessageInput) (s : State) (source : AccountAddress)
    (message : InternalMessage) (h : CallbackHeader) (i : Fin maxMembers) : Prop where
  index_lt : i.val < s.config.count.toNat
  source_eq : (s.config.members i).destination = source
  pending : (s.members i).pending ≠ 0
  method_eq : message.methodId = Ids.callback
  cause : h.causeAddress = x.destination
  hash_ne_zero : h.causeMsgHash ≠ zeros 32
  hash_fresh : h.causeMsgHash ≠ (s.members i).lastCallbackHash
  after : (s.members i).afterLt < message.createdLt
  later : (s.members i).lastCallbackLt < message.createdLt
  no_request : ¬ (CanonicalMessage.internal message).hasCallbackRequest
  currencies : ∀ c ∈ message.extra.items,
    c.currencyId = principalCurrencyId ∨ c.currencyId = shellCurrencyId

/-- The callback reports that the payment arrived. -/
structure ReceiptOk (s : State) (message : InternalMessage) (h : CallbackHeader)
    (i : Fin maxMembers) : Prop where
  success : h.statusCode = 0
  fees : ∀ c ∈ message.extra.items, c.currencyId = shellCurrencyId
  body : message.body =
    paymentBody (BitVec.ofNat 8 i.val) (s.members i).nonce (s.members i).pending

/-- The callback brings the payment back. -/
structure BounceOk (s : State) (message : InternalMessage) (h : CallbackHeader)
    (i : Fin maxMembers) : Prop where
  failure : h.statusCode ≠ 0
  amount : principal message.extra = (s.members i).pending
  body : message.body = []

end

/-- The state with a new proposal. -/
def State.proposed (s : State) (p : Proposal) : State :=
  s.governed p p.nonce s.paused s.fuelLimit s.fuelLimit

/-- The state with the vote of a signer. -/
def State.voted (s : State) (signer : Fin 3) : State :=
  s.governed { s.proposal with votes := s.proposal.votes ||| voteBit signer } s.proposalNonce
    s.paused s.fuelLimit s.fuelLimit

/-- The pause after the proposal took effect. -/
def State.nextPaused (s : State) : Bool :=
  if s.proposal.action = pause then true else if s.proposal.action = resume then false
  else s.paused

/-- The fuel limit after the proposal took effect. -/
def State.nextFuelLimit (s : State) : U128 :=
  if s.proposal.action = setFuel then s.proposal.value else s.fuelLimit

/-- The state after its proposal took effect. -/
def State.executed (s : State) : State :=
  s.governed Proposal.default s.proposalNonce s.nextPaused s.nextFuelLimit s.nextFuelLimit

/-- **The accepted calls** of the vault. -/
inductive Step [Target] (x : MessageInput) (s : State) : State → Option Transfer → Prop
  | topup {actor : Bytes32} (ask : Asks x Ids.topup actor) (ok : TopupOk x) : Step x s s none
  | deposit {actor : Bytes32} {next : U128} (ask : Asks x Ids.deposit actor)
      (ok : DepositOk x s next) : Step x s (s.deposited next) none
  | status {actor : Bytes32} (ask : Asks x Ids.status actor) (free : x.message.extra.isEmpty)
      (body : x.message.body = []) : Step x s s none
  | claim {actor : Bytes32} {i : Fin maxMembers} {nonce : U64} (ask : Asks x Ids.claim actor)
      (free : x.message.extra.isEmpty) (ok : ClaimOk x actor s i nonce) :
      Step x s (s.locked i nonce x.context.blockLt)
        (some (payment s i nonce (s.members i).claimable))
  | propose {actor : Bytes32} {signer : Fin 3} {p : Proposal} (ask : Asks x Ids.propose actor)
      (free : x.message.extra.isEmpty) (ok : ProposeOk x actor s signer p) :
      Step x s (s.proposed p) none
  | vote {actor : Bytes32} {signer : Fin 3} (ask : Asks x Ids.vote actor)
      (free : x.message.extra.isEmpty) (ok : VoteOk x actor s signer) :
      Step x s (s.voted signer) none
  | execute {actor : Bytes32} (ask : Asks x Ids.execute actor) (free : x.message.extra.isEmpty)
      (ok : ExecuteOk x s) : Step x s s.executed none
  | receipt {source : AccountAddress} {message : InternalMessage} {h : CallbackHeader}
      {i : Fin maxMembers} (ret : Returns x source message h)
      (ok : CallbackOk x s source message h i) (arrived : ReceiptOk s message h i) :
      Step x s (s.settled i message.createdLt h.causeMsgHash) none
  | bounce {source : AccountAddress} {message : InternalMessage} {h : CallbackHeader}
      {i : Fin maxMembers} (ret : Returns x source message h)
      (ok : CallbackOk x s source message h i) (returned : BounceOk s message h i) :
      Step x s (s.released i message.createdLt h.causeMsgHash) none

/-! ## Validity -/

/-- A state as it is stored: valid, with two equal copies of the fuel limit. -/
structure State.Stored (s : State) : Prop where
  valid : s.Valid
  fuel_eq : s.config.initialFuel = s.fuelLimit

/-- The votes of signers are three bits. -/
theorem votes_known_or {votes : U8} (h : votes &&& ~~~7 = 0) (signer : Fin 3) :
    (votes ||| voteBit signer) &&& ~~~7 = 0 := by
  have hbit : voteBit signer &&& ~~~7 = 0 := by
    fin_cases signer <;> decide
  rw [BitVec.and_comm, BitVec.and_or_distrib_left, BitVec.and_comm, h, BitVec.and_comm, hbit]
  rfl

/-- The bit of a signer is not empty. -/
theorem bit_ne_zero (signer : Fin 3) : voteBit signer ≠ 0 := by
  fin_cases signer <;> decide

section

variable [Target] {x : MessageInput} {s t : State} {o : Option Transfer}

/-- A message behind another one was not created at the start of time. -/
theorem CallbackOk.createdLt_ne_zero {source : AccountAddress} {message : InternalMessage}
    {h : CallbackHeader} {i : Fin maxMembers} (ok : CallbackOk x s source message h i) :
    message.createdLt ≠ 0 := by
  intro hzero
  have hlt := ok.after
  rw [hzero] at hlt
  exact BitVec.not_lt_zero hlt

omit [Target] in
/-- A new proposal keeps the state valid. -/
theorem ProposeOk.keeps_stored {actor : Bytes32} {signer : Fin 3} {p : Proposal}
    (ok : ProposeOk x actor s signer p) (h : s.Stored) : (s.proposed p).Stored := by
  have hfuel := h.valid.fuelLimit_ne_zero
  have hvotes : p.votes &&& ~~~7 = 0 := by
    rw [ok.votes_eq]
    fin_cases signer <;> decide
  refine ⟨h.valid.governed hfuel hfuel
    (fun hnone => absurd hnone ok.proposes.nonce_ne_zero) fun _ => ?_, rfl⟩
  exact ⟨rfl, ok.votes_eq ▸ bit_ne_zero signer, hvotes, ok.proposes, ok.created_eq ▸ ok.ready_eq,
    ok.expires_eq⟩

omit [Target] in
/-- A vote keeps the state valid. -/
theorem VoteOk.keeps_stored {actor : Bytes32} {signer : Fin 3} (ok : VoteOk x actor s signer)
    (h : s.Stored) : (s.voted signer).Stored := by
  have hfuel := h.valid.fuelLimit_ne_zero
  have hp := h.valid.proposal ok.stored
  refine ⟨h.valid.governed hfuel hfuel (fun hnone => absurd hnone ok.stored) fun _ => ?_, rfl⟩
  refine ⟨hp.nonce_eq, ?_, votes_known_or hp.votes_known _, hp.proposes, hp.ready_eq,
    hp.expires_eq⟩
  exact fun hzero => hp.votes_ne_zero (BitVec.or_eq_zero_iff.mp hzero).1

omit [Target] in
/-- A stored proposal leaves a fuel limit. -/
theorem State.Valid.nextFuelLimit_ne_zero (h : s.Valid) (hstored : s.proposal.nonce ≠ 0) :
    s.nextFuelLimit ≠ 0 := by
  unfold State.nextFuelLimit
  by_cases haction : s.proposal.action = setFuel
  · rw [if_pos haction]
    exact (h.proposal hstored).proposes.value_iff.mp haction
  · rw [if_neg haction]
    exact h.fuelLimit_ne_zero

/-- **Every step** leads from a stored state to a stored state. -/
theorem Step.stored (hstep : Step x s t o) (h : s.Stored) : t.Stored := by
  have hv := h.valid
  cases hstep with
  | topup => exact h
  | status => exact h
  | @deposit _ next ask ok =>
      have hle : s.received.toNat ≤ next.toNat := by
        have := ok.next_eq
        omega
      exact ⟨hv.deposited hle, h.fuel_eq⟩
  | claim ask free ok =>
      exact ⟨hv.locked ok.index_lt ok.idle ok.some ok.nonce_eq _, h.fuel_eq⟩
  | propose ask free ok => exact ok.keeps_stored h
  | vote ask free ok => exact ok.keeps_stored h
  | execute ask free ok =>
      have hfuel := hv.nextFuelLimit_ne_zero ok.stored
      exact ⟨hv.governed hfuel hfuel (fun _ => rfl) (fun hno => absurd rfl hno), rfl⟩
  | receipt ret ok arrived =>
      exact ⟨hv.settled ok.index_lt ok.createdLt_ne_zero ok.hash_ne_zero, h.fuel_eq⟩
  | bounce ret ok returned =>
      exact ⟨hv.released ok.index_lt ok.createdLt_ne_zero ok.hash_ne_zero, h.fuel_eq⟩

end

end AvmSdk.Hub
