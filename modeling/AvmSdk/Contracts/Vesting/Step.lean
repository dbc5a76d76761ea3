import AvmSdk.Contracts.Vesting.Vesting

/-!
# What a call of the vesting contract can do

* `Act x s t transfer`: an accepted call with this input leads from `s`, the state at the time of
  the call, to `t`, and emits the transfer. One constructor a method, with all the conditions that
  it checks, in exact numbers; a claim and a refund are payments over the two lanes, and callbacks
  have two constructors.
* `Step`: the same from the stored state. `Step.valid`: every step keeps the state valid.
-/

namespace AvmSdk.Vesting

open Wire Sdk Contracts

/-- The method that pays over a lane. -/
def payMethod (k : Fin 2) : U64 := if k = 0 then Ids.claim else Ids.refund

/-- The key that signs for a lane. -/
def Config.signer (c : Config) (i : Fin maxStreams) (k : Fin 2) : Bytes32 :=
  if k = 0 then (c.streams i).key else c.owner

/-- The body of a call names one stream. -/
theorem eq_of_body {body : Bytes} {i j : Fin maxStreams} (hi : body = [BitVec.ofNat 8 i.val])
    (hj : body = [BitVec.ofNat 8 j.val]) : i = j := by
  have hbyte : BitVec.ofNat 8 i.val = BitVec.ofNat 8 j.val := by
    rw [hi] at hj
    exact (List.cons.inj hj).1
  have hilt : i.val < 8 := i.isLt
  have hjlt : j.val < 8 := j.isLt
  have hvalue := congrArg BitVec.toNat hbyte
  rw [BitVec.toNat_ofNat, BitVec.toNat_ofNat, Nat.mod_eq_of_lt (by omega),
    Nat.mod_eq_of_lt (by omega)] at hvalue
  exact Fin.ext hvalue

section

variable [Target]

/-- The message brings SHELL and nothing else. -/
structure TopupOk (x : MessageInput) : Prop where
  body : x.message.body = []
  some : ¬ x.message.extra.isEmpty
  fees : ∀ c ∈ x.message.extra.items, c.currencyId = shellCurrencyId ∧ c.amount ≠ 0

/-- The owner brings the principal, before the first stream starts. -/
structure FundOk (x : MessageInput) (actor : Bytes32) (s : State) (total : U128) : Prop where
  body : x.message.body = []
  owner : s.config.owner = actor
  fresh : s.funded = false
  early : s.lastTime < s.config.firstStart
  value : principalValue x.message.extra = some total
  total_eq : total.toNat = s.config.totalAmount
  balance : total.toNat ≤ (principal x.extra).toNat

/-- The owner cancels a stream that is running. -/
structure CancellationOk (x : MessageInput) (actor : Bytes32) (s : State) (i : Fin maxStreams)
    (cap : U128) : Prop where
  body : x.message.body = [BitVec.ofNat 8 i.val]
  active : s.config.Active i
  funded : s.funded = true
  owner : s.config.owner = actor
  revocable : (s.config.streams i).revocable = true
  running : (s.progress i).cancelled = false
  before : s.lastTime < (s.config.streams i).endTime
  cap_eq : cap.toNat = (s.config.streams i).releasedAt s.lastTime

/-- The message asks for what is due over a lane. -/
structure PayOk (x : MessageInput) (actor : Bytes32) (s : State) (i : Fin maxStreams) (k : Fin 2)
    (amount : U128) (nonce : U64) : Prop where
  body : x.message.body = [BitVec.ofNat 8 i.val]
  active : s.config.Active i
  funded : s.funded = true
  signer : s.config.signer i k = actor
  idle : ((s.progress i).lanes k).pending = 0
  due : s.due i k s.lastTime = .ok amount
  some : amount ≠ 0
  balance : s.heldAmount ≤ (principal x.extra).toNat
  fuel : ∃ c ∈ x.extra.items, c.currencyId = shellCurrencyId ∧ s.config.fuel ≤ c.amount
  nonce_eq : s.nonce.toNat + 1 = nonce.toNat

/-- The message answers the open payment of a lane. -/
structure CallbackOk (x : MessageInput) (s : State) (source : AccountAddress)
    (message : InternalMessage) (h : CallbackHeader) (i : Fin maxStreams) (k : Fin 2) : Prop where
  active : s.config.Active i
  source_eq : (s.config.streams i).destination k = source
  method_eq : message.methodId = Ids.callback
  no_request : ¬ (CanonicalMessage.internal message).hasCallbackRequest
  cause : h.causeAddress = x.destination
  hash_ne_zero : h.causeMsgHash ≠ zeros 32
  pending : ((s.progress i).lanes k).pending ≠ 0
  after : ((s.progress i).lanes k).afterLt < message.createdLt
  later : ((s.progress i).lanes k).lastLt < message.createdLt
  hash_fresh : h.causeMsgHash ≠ ((s.progress i).lanes k).lastHash

/-- The callback reports that the payment arrived. -/
structure ReceiptOk (s : State) (message : InternalMessage) (h : CallbackHeader)
    (i : Fin maxStreams) (k : Fin 2) : Prop where
  success : h.statusCode = 0
  fees : ∀ c ∈ message.extra.items, c.currencyId = shellCurrencyId ∧ c.amount ≠ 0
  body : message.body = paymentBody (BitVec.ofNat 8 i.val) (BitVec.ofNat 8 k.val)
    ((s.progress i).lanes k).nonce ((s.progress i).lanes k).pending

/-- The callback brings the payment back, and perhaps fuel. -/
structure BounceOk (s : State) (message : InternalMessage) (h : CallbackHeader)
    (i : Fin maxStreams) (k : Fin 2) : Prop where
  failure : h.statusCode ≠ 0
  some : ∃ c ∈ message.extra.items, c.currencyId = principalCurrencyId
  currencies : ∀ c ∈ message.extra.items,
    c.currencyId = principalCurrencyId ∧ c.amount = ((s.progress i).lanes k).pending ∨
      c.currencyId = shellCurrencyId ∧ c.amount ≠ 0
  body : message.body = []

end

/-- **The accepted calls**, from the state at the time of the call. -/
inductive Act [Target] (x : MessageInput) (s : State) : State → Option Transfer → Prop
  | topup {actor : Bytes32} (ask : Asks x Ids.topup actor) (ok : TopupOk x) : Act x s s none
  | fund {actor : Bytes32} {total : U128} (ask : Asks x Ids.fund actor)
      (ok : FundOk x actor s total) : Act x s s.deposited none
  | status {actor : Bytes32} (ask : Asks x Ids.status actor) (free : x.message.extra.isEmpty)
      (body : x.message.body = []) : Act x s s none
  | cancel {actor : Bytes32} {i : Fin maxStreams} {cap : U128} (ask : Asks x Ids.cancel actor)
      (free : x.message.extra.isEmpty) (ok : CancellationOk x actor s i cap) :
      Act x s (s.cancelled i cap) none
  | pay {actor : Bytes32} {i : Fin maxStreams} {k : Fin 2} {amount : U128} {nonce : U64}
      (ask : Asks x (payMethod k) actor) (free : x.message.extra.isEmpty)
      (ok : PayOk x actor s i k amount nonce) :
      Act x s (s.locked i k amount nonce x.context.blockLt) (some (payment s i k nonce amount))
  | receipt {source : AccountAddress} {message : InternalMessage} {h : CallbackHeader}
      {i : Fin maxStreams} {k : Fin 2} (ret : Returns x source message h)
      (ok : CallbackOk x s source message h i k) (arrived : ReceiptOk s message h i k) :
      Act x s (s.settled i k message.createdLt h.causeMsgHash) none
  | bounce {source : AccountAddress} {message : InternalMessage} {h : CallbackHeader}
      {i : Fin maxStreams} {k : Fin 2} (ret : Returns x source message h)
      (ok : CallbackOk x s source message h i k) (returned : BounceOk s message h i k) :
      Act x s (s.released i k message.createdLt h.causeMsgHash) none

/-- **A step**: time passes up to that of the call, and the call is accepted. -/
def Step [Target] (x : MessageInput) (s t : State) (o : Option Transfer) : Prop :=
  Act x (s.observed x.context.blockTime) t o

section

variable [Target] {x : MessageInput} {s t : State} {o : Option Transfer}

omit [Target] in
/-- A message behind another one was not created at the start of time. -/
theorem CallbackOk.createdLt_ne_zero {source : AccountAddress} {message : InternalMessage}
    {h : CallbackHeader} {i : Fin maxStreams} {k : Fin 2}
    (ok : CallbackOk x s source message h i k) : message.createdLt ≠ 0 := by
  intro hzero
  have hlt := ok.after
  rw [hzero] at hlt
  exact BitVec.not_lt_zero hlt

/-- The call leads from a valid state to a valid state. -/
theorem Act.valid (hact : Act x s t o) (h : s.Valid) : t.Valid := by
  cases hact with
  | topup => exact h
  | fund => exact h.deposited
  | status => exact h
  | cancel ask free ok =>
      exact h.cancelled ok.funded ok.active ok.revocable ok.running ok.before ok.cap_eq
  | pay ask free ok =>
      exact h.locked ok.funded ok.active ok.idle ok.some ok.due ok.nonce_eq _
  | receipt ret ok arrived =>
      exact h.settled ok.active ok.pending ok.createdLt_ne_zero ok.hash_ne_zero
  | bounce ret ok returned =>
      exact h.released ok.active ok.pending ok.createdLt_ne_zero ok.hash_ne_zero

/-- **Every step** leads from a valid state to a valid state. -/
theorem Step.valid (hstep : Step x s t o) (h : s.Valid) : t.Valid :=
  Act.valid hstep (h.observed _)

end

end AvmSdk.Vesting
