import AvmSdk.Contracts.Hub.Ledger
import AvmSdk.Sdk.Input.Deploy

/-!
# The vault

The contract `revenue-hub/contracts/vault`: its constructor and its message handler, method by
method, as the code computes them.
-/

namespace AvmSdk.Hub

open Wire Sdk Contracts

section

variable [Target]

/-- Source: `finish` -/
def finish (s : State) (name : String) (index : U8) (amount : U128) : HubResult MessageOutput := do
  s.validate
  let dust ← s.dust
  let held ← s.held
  let pending ← s.pending
  let event ← event 0 name [
    ⟨"amount", .u128 amount⟩,
    ⟨"dust", .u128 dust⟩,
    ⟨"held", .u128 held⟩,
    ⟨"member", .u64 (index.zeroExtend 64)⟩,
    ⟨"nonce", .u64 s.claimNonce⟩,
    ⟨"paid", .u128 s.paid⟩,
    ⟨"paused", .u64 (if s.paused then 1 else 0)⟩,
    ⟨"pending", .u128 pending⟩,
    ⟨"proposal", .u64 s.proposalNonce⟩,
    ⟨"received", .u128 s.received⟩]
  pure (announced s.encode event)

/-- Source: `zero_value` -/
def zeroValue (input : MessageInput) : HubResult Unit := failIf (¬ input.message.extra.isEmpty) eValue

/-- A byte of a message as the index of a member; the count of a decoded state is at most
`maxMembers`. Source: `usize::from(body[0])` -/
def memberIndex (b : U8) : Fin maxMembers := Fin.ofNat maxMembers b.toNat

/-- Source: `process`, `method == ids::TOPUP` -/
def topup (input : MessageInput) (s : State) : HubResult MessageOutput := do
  noBody eArgs input.message.body
  failIf (input.message.extra.isEmpty ∨
    ∃ c ∈ input.message.extra.items, c.currencyId ≠ 2 ∨ c.amount = 0) eValue
  finish s "hub.fees_added" 255 0

/-- Source: `process`, `method == ids::DEPOSIT` -/
def deposit (input : MessageInput) (s : State) : HubResult MessageOutput := do
  noBody eArgs input.message.body
  failIf (s.paused = true) ePaused
  failIf (∃ c ∈ input.message.extra.items,
    ¬ (c.currencyId = principalCurrencyId ∨ c.currencyId = shellCurrencyId) ∨ c.amount = 0) eValue
  let amount := principal input.message.extra
  failIf (amount = 0) eValue
  let held ← s.held
  failIf ((wordCheckedAdd held amount).all (fun v => decide (principal input.extra < v)) = true)
    eBalance
  let s ← s.deposit amount
  finish s "hub.deposited" 255 amount

/-- Source: `process`, `ids::STATUS` -/
def status (input : MessageInput) (s : State) : HubResult MessageOutput := do
  noBody eArgs input.message.body
  finish s "hub.status" 255 0

/-- The payment of a claim. Source: `process`, `OutboundIntent` -/
def payment (s : State) (i : Fin maxMembers) (nonce : U64) (amount : U128) : Transfer where
  intent :=
    { inputIndex := 0
      destination := (s.config.members i).destination
      fuelFeeShells := s.fuelLimit
      extra := [⟨principalCurrencyId, amount⟩]
      methodId := Ids.receive
      body := paymentBody (BitVec.ofNat 8 i.val) nonce amount }
  handler := Ids.callback

/-- Source: `process`, `ids::CLAIM` -/
def claim (input : MessageInput) (actor : Bytes32) (s : State) : HubResult MessageOutput := do
  let body := input.message.body
  failIf (body.length ≠ 1 ∨ s.config.count ≤ body.getD 0 0) eArgs
  let i := memberIndex (body.getD 0 0)
  failIf (actor ≠ (s.config.members i).key) eAuth
  failIf (s.paused = true) ePaused
  failIf ((s.members i).pending ≠ 0) eBusy
  let amount := (s.members i).claimable
  failIf (amount = 0) eEmpty
  let held ← s.held
  failIf (principal input.extra < held ∨
    ¬ ∃ c ∈ input.extra.items, c.currencyId = 2 ∧ s.fuelLimit ≤ c.amount) eBalance
  let nonce ← okOr (wordCheckedAdd s.claimNonce 1) eOverflow
  let s := s.locked i nonce input.context.blockLt
  let out ← finish s "hub.claim_pending" (BitVec.ofNat 8 i.val) amount
  pure ((payment s i nonce amount).emitted out)

/-- The bit of a signer. Source: `process`, `1 << signer` -/
def voteBit (signer : Fin 3) : U8 := (1 : U8) <<< signer.val

/-- Source: `process`, `ids::PROPOSE` -/
def propose (input : MessageInput) (actor : Bytes32) (s : State) : HubResult MessageOutput := do
  let signer ← s.config.signer actor
  let (nonce, action, value) ← Proposal.decodeBody input.message.body
  failIf (s.proposal.nonce ≠ 0 ∧ input.context.blockTime < s.proposal.expires) eGovernance
  let next ← okOr (wordCheckedAdd s.proposalNonce 1) eOverflow
  failIf (nonce ≠ next) eGovernance
  let created := input.context.blockTime
  let ready ← okOr (wordCheckedAdd created s.config.delay) eOverflow
  let expires ← okOr (wordCheckedAdd ready s.config.voteWindow) eOverflow
  let s := { s with
    proposal := ⟨nonce, action, voteBit signer, value, created, ready, expires⟩
    proposalNonce := nonce }
  finish s "hub.proposed" 255 value

/-- Source: `snapshot_value` -/
def snapshotValue (body : Bytes) : HubResult U128 := wordAt eArgs 128 body 9

/-- Source: `process`, `ids::VOTE` -/
def vote (input : MessageInput) (actor : Bytes32) (s : State) : HubResult MessageOutput := do
  let signer ← s.config.signer actor
  let _ ← Proposal.decodeBody input.message.body
  failIf (s.proposal.nonce = 0 ∨ input.message.body ≠ s.proposal.body) eGovernance
  failIf (s.proposal.expires ≤ input.context.blockTime) eExpired
  failIf (s.proposal.votes &&& voteBit signer ≠ 0) eDuplicateVote
  let s := { s with proposal := { s.proposal with votes := s.proposal.votes ||| voteBit signer } }
  let value ← snapshotValue input.message.body
  finish s "hub.voted" 255 value

/-- The effect of a proposal. Source: `process`, `match p.action` -/
def enact (s : State) : HubResult State :=
  if s.proposal.action = pause then .ok { s with paused := true }
  else if s.proposal.action = resume then .ok { s with paused := false }
  else if s.proposal.action = setFuel then .ok { s with fuelLimit := s.proposal.value }
  else .error eState

/-- Source: `process`, `ids::EXECUTE` -/
def execute (input : MessageInput) (s : State) : HubResult MessageOutput := do
  let body := input.message.body
  failIf (body.length ≠ 8) eArgs
  let p := s.proposal
  failIf (p.nonce = 0) eGovernance
  let nonce ← wordAt eArgs 64 body 0
  failIf (nonce ≠ p.nonce) eGovernance
  failIf (p.expires ≤ input.context.blockTime) eExpired
  failIf (countOnes p.votes < 2) eQuorum
  failIf (input.context.blockTime < p.ready) eTimelock
  let s ← enact s
  let s := { s with proposal := Proposal.default }
  finish s "hub.executed" 255 p.value

/-- What a callback must carry besides its outcome.
Source: `callback`, `if m.pending == 0 || ..` -/
def CallbackRejected (input : MessageInput) (message : InternalMessage) (h : CallbackHeader)
    (m : MemberState) : Prop :=
  m.pending = 0 ∨ message.methodId ≠ Ids.callback ∨ h.causeAddress ≠ input.destination ∨
    h.causeMsgHash = zeros 32 ∨ h.causeMsgHash = m.lastCallbackHash ∨
    message.createdLt ≤ m.afterLt ∨ message.createdLt ≤ m.lastCallbackLt ∨
    (CanonicalMessage.internal message).hasCallbackRequest ∨
    ∃ c ∈ message.extra.items,
      ¬ (c.currencyId = principalCurrencyId ∨ c.currencyId = shellCurrencyId)

instance (input : MessageInput) (message : InternalMessage) (h : CallbackHeader) (m : MemberState) :
    Decidable (CallbackRejected input message h m) :=
  inferInstanceAs (Decidable (_ ∨ _))

/-- The part of `callback` for a payment that arrived. Source: `callback`, `if success` -/
def settle (message : InternalMessage) (h : CallbackHeader) (s : State) (i : Fin maxMembers) :
    HubResult State := do
  let m := s.members i
  failIf ((∃ c ∈ message.extra.items, c.currencyId ≠ shellCurrencyId) ∨
    message.body ≠ paymentBody (BitVec.ofNat 8 i.val) m.nonce m.pending) eCallback
  let paid ← okOr (wordCheckedAdd m.paid m.pending) eOverflow
  let total ← okOr (wordCheckedAdd s.paid m.pending) eOverflow
  pure (s.withMember i (State.unlockMember { m with paid := paid } message.createdLt
    h.causeMsgHash) total s.claimNonce)

/-- The part of `callback` for a payment that came back. Source: `callback`, `else` -/
def release (message : InternalMessage) (h : CallbackHeader) (s : State) (i : Fin maxMembers) :
    HubResult State := do
  let m := s.members i
  failIf (principal message.extra ≠ m.pending ∨ message.body ≠ []) eCallback
  let claimable ← okOr (wordCheckedAdd m.claimable m.pending) eOverflow
  pure (s.withMember i (State.unlockMember { m with claimable := claimable } message.createdLt
    h.causeMsgHash) s.paid s.claimNonce)

/-- Source: `callback` -/
def callback (input : MessageInput) (s : State) : HubResult MessageOutput :=
  match input.caller, input.message with
  | .internal source, .internal message => do
      let h ← okOr message.callback eCallback
      let i ← okOr ((firstIndices maxMembers s.config.count.toNat).find?
        fun i => (s.config.members i).destination = source) eCallback
      let m := s.members i
      failIf (CallbackRejected input message h m) eCallback
      if h.statusCode = 0 then do
        let s ← settle message h s i
        finish s "hub.claim_settled" (BitVec.ofNat 8 i.val) m.pending
      else do
        let s ← release message h s i
        finish s "hub.claim_failed" (BitVec.ofNat 8 i.val) m.pending
  | _, _ => .error eCallback

/-- Source: `process` -/
def process (input : MessageInput) : HubResult MessageOutput := do
  let s ← State.decode input.state
  if input.message.isCallback then callback input s
  else match input.caller with
    | .internal _ => .error eAuth
    | .external actor =>
        let method := input.message.methodId
        if method = Ids.topup then topup input s
        else if method = Ids.deposit then deposit input s
        else do
          zeroValue input
          if method = Ids.status then status input s
          else if method = Ids.claim then claim input actor s
          else if method = Ids.propose then propose input actor s
          else if method = Ids.vote then vote input actor s
          else if method = Ids.execute then execute input s
          else .error eArgs

/-- Source: `initialize` -/
def initializeVault (input : MessageInput) : HubResult MessageOutput := do
  let deploy ← input.deploy.mapError fun _ => eArgs
  let config ← Config.decode deploy.initData
  match input.caller with
  | .internal _ => .error eAuth
  | .external actor => do
      let _ ← config.signer actor
      failIf (input.state ≠ [] ∨ ∃ i ∈ firstIndices maxMembers config.count.toNat,
        (config.members i).destination = input.destination ∨
          (config.members i).destination.dappId ≠ input.destination.dappId) eArgs
      zeroValue input
      finish (State.new config) "hub.created" 255 0

/-- Source: `RevenueVault` -/
def revenueVault : Contract where
  init input := orFailure (initializeVault input)
  processMessage input := orFailure (process input)

end

end AvmSdk.Hub
