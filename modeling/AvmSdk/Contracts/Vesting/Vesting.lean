import AvmSdk.Contracts.Vesting.Ledger
import AvmSdk.Sdk.Input.Deploy
import AvmSdk.Sdk.Output.EventFields

/-!
# The vesting contract

The contract `vesting-streams/contracts/vesting`: its constructor and its message handler, method by
method, as the code computes them.
-/

namespace AvmSdk.Vesting

open Wire Sdk Contracts

/-- A byte of a message as the index of a stream; the count of a decoded state is at most
`maxStreams`. Source: `usize::from(body[0])` -/
def streamIndex (b : U8) : Fin maxStreams := ⟨b.toNat % maxStreams, Nat.mod_lt _ (by decide)⟩

/-- The payment of an amount over a lane. Source: `process`, `OutboundIntent` -/
def payment (s : State) (i : Fin maxStreams) (kind : Fin 2) (nonce : U64) (amount : U128) :
    Transfer where
  intent :=
    { inputIndex := 0
      destination := (s.config.streams i).destination kind
      fuelFeeShells := s.config.fuel
      extra := [⟨principalCurrencyId, amount⟩]
      methodId := Ids.receive
      body := paymentBody (BitVec.ofNat 8 i.val) (BitVec.ofNat 8 kind.val) nonce amount }
  handler := Ids.callback

/-- The lane that pays to an account. Source: `callback`, `find_map` -/
def Config.laneOf (c : Config) (source : AccountAddress) : Option (Fin maxStreams × Fin 2) :=
  (firstIndices maxStreams c.count.toNat).findSome? fun i =>
    if (c.streams i).payout = source then some (i, 0)
    else if (c.streams i).refund = source then some (i, 1)
    else none

/-- One currency of a callback. Source: `callback_value`, `match currency.currency_id` -/
def scanValue (principal : Option U128) (hasPrincipal : Bool) (currency : CurrencyAmount) :
    Option Bool :=
  if currency.currencyId = principalCurrencyId ∧ principal = some currency.amount then some true
  else if currency.currencyId = shellCurrencyId ∧ 0 < currency.amount then some hasPrincipal
  else none

/-- A receipt is counted as paid. Source: `callback`, `if kind == 0` -/
def Progress.addPaid (p : Progress) (kind : Fin 2) (amount : U128) : ResultCode Progress :=
  if kind = 0 then do
    let claimed ← okOr (wordCheckedAdd p.claimed amount) eOverflow
    pure { p with claimed := claimed }
  else do
    let refunded ← okOr (wordCheckedAdd p.refunded amount) eOverflow
    pure { p with refunded := refunded }

section

variable [Target]

/-- The parameter `eventClass` is `class` of the source. Source: `finish` -/
def finish (s : State) (eventClass : U64) (name : String) (index kind : U8) (amount : U128) :
    ResultCode MessageOutput := do
  s.validate
  let (claimed, refunded, pending) ← s.totals
  let held ← s.held
  let fieldsBinary ← (encodeEventFields [
    ⟨"amount", .u128 amount⟩,
    ⟨"claimed", .u128 claimed⟩,
    ⟨"held", .u128 held⟩,
    ⟨"index", .u64 (index.zeroExtend 64)⟩,
    ⟨"kind", .u64 (kind.zeroExtend 64)⟩,
    ⟨"nonce", .u64 s.nonce⟩,
    ⟨"pending", .u128 pending⟩,
    ⟨"refunded", .u128 refunded⟩,
    ⟨"time", .u64 (s.lastTime.zeroExtend 64)⟩]).mapError fun _ => eState
  pure (announced s.encode ⟨0, .external, eventClass, name, [], fieldsBinary⟩)

/-- Source: `zero_value` -/
def zeroValue (input : MessageInput) : ResultCode Unit :=
  failIf (¬ input.message.extra.isEmpty) eValue

/-- Source: `process`, `method == ids::TOPUP` -/
def topup (input : MessageInput) (s : State) : ResultCode MessageOutput := do
  noBody eArgs input.message.body
  failIf (input.message.extra.isEmpty ∨ ∃ c ∈ input.message.extra.items,
    c.currencyId ≠ shellCurrencyId ∨ c.amount = 0) eValue
  finish s Ids.eventFees "stream.fees" 255 255 0

/-- Source: `process`, `method == ids::FUND` -/
def fund (input : MessageInput) (actor : Bytes32) (s : State) : ResultCode MessageOutput := do
  noBody eArgs input.message.body
  failIf (actor ≠ s.config.owner) eAuth
  failIf (s.funded = true ∨ s.config.firstStart ≤ s.lastTime) ePhase
  let total ← s.config.total
  failIf (principalValue input.message.extra ≠ some total) eValue
  failIf (principal input.extra < total) eBalance
  finish s.deposited Ids.eventFunded "stream.funded" 255 255 total

/-- Source: `process`, `method == ids::STATUS` -/
def status (input : MessageInput) (s : State) : ResultCode MessageOutput := do
  noBody eArgs input.message.body
  finish s Ids.eventStatus "stream.status" 255 255 0

/-- Source: `process`, `method == ids::CANCEL` -/
def cancel (actor : Bytes32) (s : State) (i : Fin maxStreams) : ResultCode MessageOutput := do
  let cfg := s.config.streams i
  failIf (actor ≠ s.config.owner) eAuth
  failIf (cfg.revocable = false) eIrrevocable
  failIf ((s.progress i).cancelled = true ∨ cfg.endTime ≤ s.lastTime) ePhase
  let cap ← cfg.earned s.lastTime
  finish (s.cancelled i cap) Ids.eventCancelled "stream.cancelled" (BitVec.ofNat 8 i.val) 255 cap

/-- What a claim and a refund do once their signer is known.
Source: `process`, `if s.progress[i].lanes[kind].pending != 0` -/
def pay (input : MessageInput) (s : State) (i : Fin maxStreams) (kind : Fin 2) :
    ResultCode MessageOutput := do
  failIf (((s.progress i).lanes kind).pending ≠ 0) eBusy
  let amount ← s.due i kind s.lastTime
  failIf (amount = 0) eEmpty
  let held ← s.held
  failIf (principal input.extra < held ∨ ¬ ∃ c ∈ input.extra.items,
    c.currencyId = shellCurrencyId ∧ s.config.fuel ≤ c.amount) eBalance
  let nonce ← okOr (wordCheckedAdd s.nonce 1) eOverflow
  let s := s.locked i kind amount nonce input.context.blockLt
  let out ← finish s Ids.eventPending "stream.pending" (BitVec.ofNat 8 i.val)
    (BitVec.ofNat 8 kind.val) amount
  pure ((payment s i kind nonce amount).emitted out)

/-- The methods that are about one stream. Source: `process`, `let i = usize::from(body[0])` -/
def manage (input : MessageInput) (actor : Bytes32) (s : State) : ResultCode MessageOutput := do
  let method := input.message.methodId
  let body := input.message.body
  failIf (body.length ≠ 1 ∨ s.config.count ≤ body.getD 0 0) eArgs
  let i := streamIndex (body.getD 0 0)
  failIf (s.funded = false) ePhase
  if method = Ids.cancel then cancel actor s i
  else if method = Ids.claim then do
    failIf (actor ≠ (s.config.streams i).key) eAuth
    pay input s i 0
  else if method = Ids.refund then do
    failIf (actor ≠ s.config.owner) eAuth
    pay input s i 1
  else .error eArgs

/-- Source: `callback_value` -/
def callbackValue (extra : CurrencyAmounts) (principal : Option U128) : Bool :=
  (extra.items.foldlM (scanValue principal) principal.isNone).getD false

/-- The part of `callback` for a payment that arrived.
Source: `callback`, `if header.status_code == 0` -/
def settle (message : InternalMessage) (header : CallbackHeader) (s : State) (i : Fin maxStreams)
    (kind : Fin 2) : ResultCode State := do
  let lane := (s.progress i).lanes kind
  failIf (callbackValue message.extra none = false) eCallback
  let read ← (readPayment message.body).mapError fun _ => eCallback
  failIf (read ≠ (i.val, kind.val, lane.nonce, lane.pending)) eCallback
  let p ← (s.progress i).addPaid kind lane.pending
  let lane := Lane.closed message.createdLt header.causeMsgHash
  pure (s.withProgress i { p with lanes := Function.update p.lanes kind lane } s.nonce)

/-- The part of `callback` for a payment that came back. Source: `callback`, `else if` -/
def release (message : InternalMessage) (header : CallbackHeader) (s : State) (i : Fin maxStreams)
    (kind : Fin 2) : ResultCode State := do
  let p := s.progress i
  failIf (callbackValue message.extra (some (p.lanes kind).pending) = false ∨ message.body ≠ [])
    eCallback
  let lane := Lane.closed message.createdLt header.causeMsgHash
  pure (s.withProgress i { p with lanes := Function.update p.lanes kind lane } s.nonce)

/-- Source: `callback` -/
def callback (input : MessageInput) (s : State) : ResultCode MessageOutput :=
  match input.caller, input.message with
  | .internal source, .internal message => do
      failIf (message.methodId ≠ Ids.callback ∨ ¬ (CanonicalMessage.internal message).isCallback ∨
        (CanonicalMessage.internal message).hasCallbackRequest) eCallback
      let header ← okOr message.callback eCallback
      failIf (header.causeAddress ≠ input.destination ∨ header.causeMsgHash = zeros 32) eCallback
      let (i, kind) ← okOr (s.config.laneOf source) eCallback
      let lane := (s.progress i).lanes kind
      failIf (lane.pending = 0 ∨ message.createdLt ≤ lane.afterLt ∨
        message.createdLt ≤ lane.lastLt ∨ header.causeMsgHash = lane.lastHash) eCallback
      if header.statusCode = 0 then do
        let s ← settle message header s i kind
        finish s Ids.eventSettled "stream.settled" (BitVec.ofNat 8 i.val) (BitVec.ofNat 8 kind.val)
          lane.pending
      else do
        let s ← release message header s i kind
        finish s Ids.eventFailed "stream.failed" (BitVec.ofNat 8 i.val) (BitVec.ofNat 8 kind.val)
          lane.pending
  | _, _ => .error eCallback

/-- Source: `process` -/
def process (input : MessageInput) : ResultCode MessageOutput := do
  let s ← State.decode input.state
  let s := s.observed input.context.blockTime
  if input.message.isCallback then callback input s
  else match input.caller with
    | .internal _ => .error eAuth
    | .external actor =>
        let method := input.message.methodId
        if method = Ids.topup then topup input s
        else if method = Ids.fund then fund input actor s
        else do
          zeroValue input
          if method = Ids.status then status input s
          else manage input actor s

/-- Source: `initialize` -/
def initializeVesting (input : MessageInput) : ResultCode MessageOutput := do
  let deploy ← input.deploy.mapError fun _ => eArgs
  let config ← Config.decode deploy.initData
  failIf (input.caller ≠ .external config.owner) eAuth
  zeroValue input
  failIf (input.state ≠ [] ∨ config.firstStart ≤ input.context.blockTime ∨
    ∃ i ∈ firstIndices maxStreams config.count.toNat,
      ∃ a ∈ [(config.streams i).payout, (config.streams i).refund],
        a = input.destination ∨ a.dappId ≠ input.destination.dappId) eArgs
  finish (State.new config input.context.blockTime) Ids.eventCreated "stream.created" 255 255 0

/-- Source: `Vesting` -/
def vesting : Contract where
  init input := orFailure (initializeVesting input)
  processMessage input := orFailure (process input)

end

end AvmSdk.Vesting
