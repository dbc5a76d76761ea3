import AvmSdk.Contracts.Escrow.Ledger
import AvmSdk.Sdk.Input.Deploy
import AvmSdk.Sdk.Output.EventFields

/-!
# The bounty escrow

The contract `bounty-escrow/contracts/escrow`: its constructor and its message handler, method by
method, as the code computes them.
-/

namespace AvmSdk.Escrow

open Wire Sdk Contracts

/-- Source: `event_class` -/
def eventClass (name : String) : ResultCode U64 :=
  match name with
  | "escrow.created" => .ok Ids.eventCreated
  | "escrow.status" => .ok Ids.eventStatus
  | "escrow.fees_added" => .ok Ids.eventFeesAdded
  | "escrow.funded" => .ok Ids.eventFunded
  | "escrow.submitted" => .ok Ids.eventSubmitted
  | "escrow.approved" => .ok Ids.eventApproved
  | "escrow.transfer_pending" => .ok Ids.eventTransferPending
  | "escrow.transfer_settled" => .ok Ids.eventTransferSettled
  | "escrow.transfer_failed" => .ok Ids.eventTransferFailed
  | _ => .error errState

/-- The account that a transfer of this kind goes to. Source: `dispatch`, `let destination` -/
def Config.recipient (c : Config) (kind : U8) : AccountAddress :=
  if kind = 1 then c.payTo else c.refundTo

/-- The message of a transfer. Source: `dispatch`, `OutboundIntent` -/
def transferOf (c : Config) (p : Pending) : Transfer where
  intent :=
    { inputIndex := 0
      destination := c.recipient p.kind
      fuelFeeShells := c.fuelReserve
      extra := [⟨principalCurrencyId, p.amount⟩]
      methodId := Ids.receive
      body := paymentBody p }
  handler := Ids.callback

/-- Source: `index` -/
def index (i : U8) (s : State) : ResultCode (Fin maxMilestones) := do
  failIf (¬ i < s.config.count) errArgs
  pure (milestone i)

/-- Source: `finish` -/
def finish (s : State) (name : String) (index : U8) (amount : U128) : ResultCode MessageOutput := do
  s.validate
  let fieldsBinary ← (encodeEventFields [
    ⟨"amount", .u128 amount⟩,
    ⟨"attempt", .u64 s.attempts⟩,
    ⟨"funded", .u128 s.funded⟩,
    ⟨"index", .u64 (index.zeroExtend 64)⟩,
    ⟨"paid", .u128 s.paid⟩,
    ⟨"pending", .u128 s.pending.amount⟩,
    ⟨"refunded", .u128 s.refunded⟩]).mapError fun _ => errState
  let eventClass ← eventClass name
  pure (announced s.encode ⟨0, .external, eventClass, name, [s.config.owner.val], fieldsBinary⟩)

section

variable [Target]

/-- Source: `zero_value` -/
def zeroValue (input : MessageInput) : ResultCode Unit :=
  failIf (¬ input.message.extra.isEmpty) errValue

/-- Source: `process`, `method == ids::STATUS` -/
def status (input : MessageInput) (s : State) : ResultCode MessageOutput := do
  noBody errArgs input.message.body
  zeroValue input
  finish s "escrow.status" 255 0

/-- Source: `process`, `method == ids::TOPUP` -/
def topup (input : MessageInput) (s : State) : ResultCode MessageOutput := do
  noBody errArgs input.message.body
  failIf (input.message.extra.isEmpty ∨ ∃ c ∈ input.message.extra.items,
    c.currencyId ≠ shellCurrencyId ∨ c.amount = 0) errValue
  finish s "escrow.fees_added" 255 0

/-- Source: `process`, `method == ids::FUND` -/
def fund (input : MessageInput) (actor : Bytes32) (s : State) : ResultCode MessageOutput := do
  noBody errArgs input.message.body
  failIf (actor ≠ s.config.owner) errAuth
  failIf (s.config.deadline ≤ input.context.blockTime) errDeadline
  failIf (s.funded ≠ 0) errPhase
  failIf (principal input.message.extra ≠ s.config.total ∨ input.message.extra.len ≠ 1) errValue
  failIf (principal input.extra < s.config.total) errBalance
  finish s.deposited "escrow.funded" 255 (principal input.message.extra)

/-- Source: `process`, `ids::SUBMIT` -/
def submit (input : MessageInput) (actor : Bytes32) (s : State) : ResultCode MessageOutput := do
  failIf (actor ≠ s.config.worker) errAuth
  failIf (s.config.deadline ≤ input.context.blockTime) errDeadline
  failIf (input.message.body.length ≠ 33) errArgs
  let i ← index (input.message.body.getD 0 0) s
  let hash ← arrayAt errArgs 32 input.message.body 1
  failIf (hash = zeros 32) errArgs
  failIf (¬ Refundable (s.phases i)) errPhase
  finish (s.submitted i hash) "escrow.submitted" (BitVec.ofNat 8 i.val) 0

/-- The owner signs the exact delivery hash. Source: `process`, `ids::APPROVE` -/
def approve (input : MessageInput) (actor : Bytes32) (s : State) : ResultCode MessageOutput := do
  failIf (actor ≠ s.config.owner) errAuth
  failIf (s.config.deadline ≤ input.context.blockTime) errDeadline
  failIf (input.message.body.length ≠ 33) errArgs
  let i ← index (input.message.body.getD 0 0) s
  failIf (s.phases i ≠ phaseSubmitted) errPhase
  failIf (input.message.body.drop 1 ≠ (s.deliveryHashes i).val) errArgs
  finish (s.approved i) "escrow.approved" (BitVec.ofNat 8 i.val) 0

/-- The parameter `idx` is `index` of the source. Source: `dispatch` -/
def dispatch (input : MessageInput) (s : State) (kind idx : U8) (amount : U128) :
    ResultCode MessageOutput := do
  failIf (maxAttempts ≤ s.attempts.toNat) errLimit
  failIf (principal input.extra < s.funded - s.paid - s.refunded) errBalance
  failIf (¬ ∃ c ∈ input.extra.items,
    c.currencyId = shellCurrencyId ∧ s.config.fuelReserve ≤ c.amount) errBalance
  let s := s.dispatched kind idx amount
  let output ← finish s "escrow.transfer_pending" idx amount
  pure ((transferOf s.config s.pending).emitted output)

/-- Source: `process`, `ids::PAY` -/
def pay (input : MessageInput) (actor : Bytes32) (s : State) : ResultCode MessageOutput := do
  failIf (actor ≠ s.config.owner ∧ actor ≠ s.config.worker) errAuth
  failIf (input.message.body.length ≠ 1) errArgs
  let i ← index (input.message.body.getD 0 0) s
  failIf (s.phases i ≠ phaseApproved) errPhase
  dispatch input s 1 (BitVec.ofNat 8 i.val) (s.config.amounts i)

/-- Source: `process`, `ids::REFUND` -/
def refund (input : MessageInput) (actor : Bytes32) (s : State) : ResultCode MessageOutput := do
  failIf (actor ≠ s.config.owner) errAuth
  noBody errArgs input.message.body
  failIf (input.context.blockTime < s.config.deadline) errDeadline
  let amount ← s.refundable
  failIf (amount = 0) errPhase
  dispatch input s 2 255 amount

/-- The methods of a funded escrow. Source: `process`, `match method` -/
def manage (input : MessageInput) (actor : Bytes32) (s : State) : ResultCode MessageOutput :=
  let method := input.message.methodId
  if method = Ids.submit then submit input actor s
  else if method = Ids.approve then approve input actor s
  else if method = Ids.pay then pay input actor s
  else if method = Ids.refund then refund input actor s
  else .error errArgs

/-- The part of `callback` for a transfer that arrived. Source: `callback`, `if success` -/
def settle (message : InternalMessage) (s : State) : ResultCode State := do
  let p := s.pending
  failIf ((∃ c ∈ message.extra.items, c.currencyId ≠ shellCurrencyId) ∨
    message.body ≠ paymentBody p) errCallback
  if p.kind = 1 then do
    let paid ← okOr (wordCheckedAdd s.paid p.amount) errState
    pure { s with phases := Function.update s.phases (milestone p.index) phasePaid, paid := paid }
  else do
    let refunded ← okOr (wordCheckedAdd s.refunded p.amount) errState
    pure { s with phases := s.refundedPhases, refunded := refunded }

/-- The part of `callback` for a transfer that came back; the exact principal has to be there.
Source: `callback`, `else if principal(message.extra) != p.amount` -/
def release (message : InternalMessage) (s : State) : ResultCode State := do
  failIf (principal message.extra ≠ s.pending.amount ∨ message.body ≠ []) errCallback
  pure s

/-- The state without the pending lock. Source: `callback`, `let success = header.status_code == 0` -/
def outcome (message : InternalMessage) (header : CallbackHeader) (s : State) : ResultCode State :=
  if header.statusCode = 0 then settle message s else release message s

/-- Source: `callback` -/
def callback (input : MessageInput) (s : State) : ResultCode MessageOutput :=
  match input.caller, input.message with
  | .internal source, .internal message => do
      let header ← okOr message.callback errCallback
      let p := s.pending
      failIf (p.kind = 0 ∨ message.methodId ≠ Ids.callback ∨ source ≠ s.config.recipient p.kind ∨
        header.causeAddress ≠ input.destination ∨ header.causeMsgHash = zeros 32 ∨
        header.causeMsgHash ∈ s.receipts ∨
        (CanonicalMessage.internal message).hasCallbackRequest ∨
        ∃ c ∈ message.extra.items, c.currencyId ≠ shellCurrencyId ∧
          c.currencyId ≠ principalCurrencyId) errCallback
      let s ← outcome message header s
      finish (s.closed header.causeMsgHash)
        (if header.statusCode = 0 then "escrow.transfer_settled" else "escrow.transfer_failed")
        p.index p.amount
  | _, _ => .error errCallback

/-- Source: `process` -/
def process (input : MessageInput) : ResultCode MessageOutput := do
  let s ← State.decode input.state
  if input.message.isCallback then callback input s
  else match input.caller with
    | .internal _ => .error errAuth
    | .external actor =>
        let method := input.message.methodId
        if method = Ids.status then status input s
        else if method = Ids.topup then topup input s
        else do
          failIf (s.pending.kind ≠ 0) errPending
          if method = Ids.fund then fund input actor s
          else do
            zeroValue input
            failIf (s.funded = 0) errPhase
            manage input actor s

/-- Source: `initialize` -/
def initializeEscrow (input : MessageInput) : ResultCode MessageOutput := do
  let deploy ← input.deploy.mapError fun _ => errArgs
  let config ← Config.decode deploy.initData
  failIf (input.caller ≠ .external config.owner) errAuth
  failIf (input.state ≠ [] ∨ config.deadline ≤ input.context.blockTime) errArgs
  failIf (config.payTo = input.destination ∨ config.refundTo = input.destination) errArgs
  zeroValue input
  finish (State.new config) "escrow.created" 255 0

/-- Source: `Escrow` -/
def escrow : Contract where
  init input := orFailure (initializeEscrow input)
  processMessage input := orFailure (process input)

end

end AvmSdk.Escrow
