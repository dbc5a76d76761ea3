import AvmSdk.Contracts.Escrow.Escrow

/-!
# What a call of the bounty escrow can do

* `Step x s t transfer`: an accepted call with this input leads from `s` to `t`, and emits the
  transfer. One constructor a method, with all the conditions that it checks, in exact numbers;
  callbacks have two.
* `Step.valid`: every step keeps the state valid.
-/

namespace AvmSdk.Escrow

open Wire Sdk Contracts

section

variable [Target]

/-- The message brings SHELL and nothing else. -/
structure TopupOk (x : MessageInput) : Prop where
  body : x.message.body = []
  some : ¬ x.message.extra.isEmpty
  fees : ∀ c ∈ x.message.extra.items, c.currencyId = shellCurrencyId ∧ c.amount ≠ 0

/-- The owner brings the principal, before the deadline. -/
structure FundOk (x : MessageInput) (actor : Bytes32) (s : State) : Prop where
  idle : s.pending.kind = 0
  body : x.message.body = []
  owner : s.config.owner = actor
  early : x.context.blockTime < s.config.deadline
  fresh : s.funded = 0
  value : principal x.message.extra = s.config.total
  single : x.message.extra.len = 1
  balance : s.config.total ≤ principal x.extra

/-- What the methods of a funded escrow have in common. -/
structure Ready (x : MessageInput) (s : State) : Prop where
  idle : s.pending.kind = 0
  free : x.message.extra.isEmpty
  funded : s.funded ≠ 0

/-- The worker hands in a delivery, before the deadline. -/
structure SubmitOk (x : MessageInput) (actor : Bytes32) (s : State) (i : Fin maxMilestones)
    (hash : Bytes32) : Prop extends Ready x s where
  worker : s.config.worker = actor
  early : x.context.blockTime < s.config.deadline
  body : x.message.body = BitVec.ofNat 8 i.val :: hash.val
  active : s.config.Active i
  hash_ne_zero : hash ≠ zeros 32
  phase : Refundable (s.phases i)

/-- The owner approves the delivery that was handed in last, before the deadline. -/
structure ApproveOk (x : MessageInput) (actor : Bytes32) (s : State) (i : Fin maxMilestones) : Prop
    extends Ready x s where
  owner : s.config.owner = actor
  early : x.context.blockTime < s.config.deadline
  body : x.message.body = BitVec.ofNat 8 i.val :: (s.deliveryHashes i).val
  active : s.config.Active i
  phase : s.phases i = phaseSubmitted

/-- A transfer can be sent: the attempts are not used up, and the account covers what is owed. -/
structure SendOk (x : MessageInput) (s : State) : Prop where
  room : s.attempts.toNat < maxAttempts
  balance : s.funded.toNat - s.paid.toNat - s.refunded.toNat ≤ (principal x.extra).toNat
  fuel : ∃ c ∈ x.extra.items, c.currencyId = shellCurrencyId ∧ s.config.fuelReserve ≤ c.amount

/-- The owner or the worker asks for the payment of an approved milestone. -/
structure PayOk (x : MessageInput) (actor : Bytes32) (s : State) (i : Fin maxMilestones) : Prop
    extends Ready x s, SendOk x s where
  signer : s.config.owner = actor ∨ s.config.worker = actor
  body : x.message.body = [BitVec.ofNat 8 i.val]
  active : s.config.Active i
  phase : s.phases i = phaseApproved

/-- The owner asks for what is refundable, from the deadline on. -/
structure RefundOk (x : MessageInput) (actor : Bytes32) (s : State) (amount : U128) : Prop
    extends Ready x s, SendOk x s where
  owner : s.config.owner = actor
  body : x.message.body = []
  late : s.config.deadline ≤ x.context.blockTime
  amount_eq : amount.toNat = s.refundableSum
  some : amount ≠ 0

/-- The message answers the pending transfer. -/
structure CallbackOk (x : MessageInput) (s : State) (source : AccountAddress)
    (message : InternalMessage) (h : CallbackHeader) : Prop where
  pending : s.pending.kind ≠ 0
  method_eq : message.methodId = Ids.callback
  source_eq : s.config.recipient s.pending.kind = source
  cause : h.causeAddress = x.destination
  hash_ne_zero : h.causeMsgHash ≠ zeros 32
  hash_fresh : h.causeMsgHash ∉ s.receipts
  no_request : ¬ (CanonicalMessage.internal message).hasCallbackRequest
  currencies : ∀ c ∈ message.extra.items,
    c.currencyId = shellCurrencyId ∨ c.currencyId = principalCurrencyId

/-- The callback reports that the transfer arrived. -/
structure ReceiptOk (s : State) (message : InternalMessage) (h : CallbackHeader) : Prop where
  success : h.statusCode = 0
  fees : ∀ c ∈ message.extra.items, c.currencyId = shellCurrencyId
  body : message.body = paymentBody s.pending

/-- The callback brings the transfer back. -/
structure BounceOk (s : State) (message : InternalMessage) (h : CallbackHeader) : Prop where
  failure : h.statusCode ≠ 0
  value : principal message.extra = s.pending.amount
  body : message.body = []

end

/-- The transfer of what is pending. -/
def State.transfer (s : State) : Transfer := transferOf s.config s.pending

/-- **The accepted calls.** -/
inductive Step [Target] (x : MessageInput) (s : State) : State → Option Transfer → Prop
  | status {actor : Bytes32} (ask : Asks x Ids.status actor) (body : x.message.body = [])
      (free : x.message.extra.isEmpty) : Step x s s none
  | topup {actor : Bytes32} (ask : Asks x Ids.topup actor) (ok : TopupOk x) : Step x s s none
  | fund {actor : Bytes32} (ask : Asks x Ids.fund actor) (ok : FundOk x actor s) :
      Step x s s.deposited none
  | submit {actor : Bytes32} {i : Fin maxMilestones} {hash : Bytes32}
      (ask : Asks x Ids.submit actor) (ok : SubmitOk x actor s i hash) :
      Step x s (s.submitted i hash) none
  | approve {actor : Bytes32} {i : Fin maxMilestones} (ask : Asks x Ids.approve actor)
      (ok : ApproveOk x actor s i) : Step x s (s.approved i) none
  | pay {actor : Bytes32} {i : Fin maxMilestones} (ask : Asks x Ids.pay actor)
      (ok : PayOk x actor s i) :
      Step x s (s.dispatched 1 (BitVec.ofNat 8 i.val) (s.config.amounts i))
        (some (s.dispatched 1 (BitVec.ofNat 8 i.val) (s.config.amounts i)).transfer)
  | refund {actor : Bytes32} {amount : U128} (ask : Asks x Ids.refund actor)
      (ok : RefundOk x actor s amount) :
      Step x s (s.dispatched 2 255 amount) (some (s.dispatched 2 255 amount).transfer)
  | receipt {source : AccountAddress} {message : InternalMessage} {h : CallbackHeader}
      (ret : Returns x source message h) (ok : CallbackOk x s source message h)
      (arrived : ReceiptOk s message h) : Step x s (s.settled h.causeMsgHash) none
  | bounce {source : AccountAddress} {message : InternalMessage} {h : CallbackHeader}
      (ret : Returns x source message h) (ok : CallbackOk x s source message h)
      (returned : BounceOk s message h) : Step x s (s.closed h.causeMsgHash) none

section

variable [Target] {x : MessageInput} {s t : State} {o : Option Transfer}

/-- **Every step** leads from a valid state to a valid state. -/
theorem Step.valid (hstep : Step x s t o) (h : s.Valid) : t.Valid := by
  cases hstep with
  | status => exact h
  | topup => exact h
  | fund => exact h.deposited
  | submit ask ok => exact h.submitted ok.funded ok.idle ok.active ok.phase ok.hash_ne_zero
  | approve ask ok => exact h.approved ok.funded ok.idle ok.phase
  | pay ask ok => exact h.dispatchedPayment ok.funded ok.idle ok.room ok.phase
  | refund ask ok => exact h.dispatchedRefund ok.funded ok.idle ok.room ok.some ok.amount_eq
  | receipt ret ok arrived => exact h.settled ok.pending ok.hash_ne_zero ok.hash_fresh
  | bounce ret ok returned => exact h.closed ok.pending ok.hash_ne_zero ok.hash_fresh

/-- The configuration of a running escrow never changes. -/
theorem Step.config_eq (hstep : Step x s t o) : t.config = s.config := by
  cases hstep with
  | receipt ret ok arrived =>
      unfold State.settled
      split_ifs <;> rfl
  | _ => rfl

end

end AvmSdk.Escrow
