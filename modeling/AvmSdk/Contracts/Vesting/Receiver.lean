import AvmSdk.Contracts.Vesting.Core
import AvmSdk.Sdk.Input.Signed

/-!
# The receiver of a vesting payment

The contract `vesting-streams/contracts/receiver`: the account at the end of a lane, which counts the
payments of the one contract that it is bound to. Its state is a byte string that the code reads and
patches in place.

* `receiver`: the contract. `ReceiverState`: the fields of its state that matter to the contract that
  pays.
* `processReceiver_cases`: an accepted call is the receipt of a payment, a binding, or leaves these
  fields.
* `initializeReceiver_ok`: a fresh receiver is not bound and has received nothing.
* `starts_receiver`: every account can be deployed as a receiver.
-/

namespace AvmSdk.Vesting

open Wire Sdk Contracts

/-- Source: `STATE_BYTES` of the receiver -/
def receiverBytes : ℕ := 368

/-- Source: `E_RECEIVER_AUTH` -/
def eReceiverAuth : U32 := 4100
/-- Source: `E_RECEIVER_ARGS` -/
def eReceiverArgs : U32 := 4101
/-- Source: `E_REJECT` -/
def eReject : U32 := 4102

/-- Source: `put_address` -/
def putAddress (b : Bytes) (o : ℕ) (a : AccountAddress) : Bytes := patch b o a.toBytes

/-- The record of one stream in the state of a receiver. Source: `process` of the receiver,
`let o = 104 + index * 32` -/
def recordOffset (index : ℕ) : ℕ := 104 + index * 32

/-- What the state of a receiver must not look like. Source: `validate` of the receiver -/
def MalformedReceiver (b : Bytes) : Prop :=
  b.length ≠ receiverBytes ∨ 1 < b.getD 96 0 ∨ 1 < b.getD 97 0 ∨ maxStreams ≤ (b.getD 98 0).toNat ∨
    b.extract 99 104 ≠ (zeros 5).val ∨ b.extract 360 368 ≠ (zeros 8).val

instance (b : Bytes) : Decidable (MalformedReceiver b) := inferInstanceAs (Decidable (_ ∨ _))

section

variable [Target]

/-- What a receiver has received of one stream. Source: `process` of the receiver,
`u128_at(b, o + 8)` -/
def received (b : Bytes) (index : ℕ) : ResultCode U128 :=
  wordAt eArgs 128 b (recordOffset index + 8)

/-- Source: `initialize` of the receiver -/
def initializeReceiver (input : MessageInput) : ResultCode MessageOutput :=
  match input.caller with
  | .internal _ => .error eReceiverAuth
  | .external owner => do
      let deploy ← input.deploy.mapError fun _ => eArgs
      let body := deploy.initData
      failIf (body.length ≠ 2 ∨ 1 < body.getD 0 0 ∨ maxStreams ≤ (body.getD 1 0).toNat ∨
        input.state ≠ [] ∨ ¬ input.message.extra.isEmpty) eReceiverArgs
      let b := patch (zeros receiverBytes).val 0 owner.val
      let b := patch b 97 [body.getD 0 0]
      let b := patch b 98 [body.getD 1 0]
      pure (MessageOutput.success (.fullReplace b))

/-- Source: `process` of the receiver, `method == ids::BIND` -/
def bindSource (input : MessageInput) (b : Bytes) : ResultCode Bytes := do
  let body := input.message.body
  failIf (body.length ≠ 64 ∨ b.extract 32 96 ≠ (zeros 64).val) eReceiverArgs
  let a ← addressAt eArgs body 0
  failIf (¬ nonzeroAddress a ∨ a = input.destination ∨ a.dappId ≠ input.destination.dappId)
    eReceiverArgs
  pure (putAddress b 32 a)

/-- Source: `process` of the receiver, `method == ids::REJECT` -/
def setReject (input : MessageInput) (b : Bytes) : ResultCode Bytes := do
  let body := input.message.body
  failIf (body.length ≠ 1 ∨ 1 < body.getD 0 0) eReceiverArgs
  pure (patch b 96 [body.getD 0 0])

/-- The state after a call of the owner, or after a query of anyone. Source: `process` of the
receiver, `if method == ids::RECEIVER_STATUS` -/
def configured (input : MessageInput) (actor : Bytes32) (b : Bytes) : ResultCode Bytes :=
  if input.message.methodId = Ids.receiverStatus then do
    noBody eArgs input.message.body
    pure b
  else do
    let owner ← arrayAt eArgs 32 b 0
    failIf (actor ≠ owner) eReceiverAuth
    if input.message.methodId = Ids.bind then bindSource input b else setReject input b

/-- Source: `process` of the receiver,
`method == ids::RECEIVER_STATUS || method == ids::BIND || method == ids::REJECT` -/
def configure (input : MessageInput) (b : Bytes) : ResultCode MessageOutput :=
  match input.caller with
  | .internal _ => .error eReceiverAuth
  | .external actor => do
      failIf (¬ input.message.extra.isEmpty) eReceiverArgs
      let next ← configured input actor b
      pure (MessageOutput.success (.fullReplace next))

/-- Source: `process` of the receiver, `method != ids::RECEIVE` and what follows -/
def receive (source : AccountAddress) (message : InternalMessage) (b : Bytes) :
    ResultCode MessageOutput := do
  let bound ← addressAt eArgs b 32
  failIf (message.methodId ≠ Ids.receive ∨ source ≠ bound ∨ ¬ nonzeroAddress source ∨
    ¬ (CanonicalMessage.internal message).hasCallbackRequest ∨
    (CanonicalMessage.internal message).isCallback) eReceiverAuth
  failIf (b.getD 96 0 = 1) eReject
  let body := message.body
  let (index, kind, nonce, amount) ← readPayment body
  failIf (index ≠ (b.getD 98 0).toNat ∨ kind ≠ (b.getD 97 0).toNat ∨
    principalValue message.extra ≠ some amount) eReceiverArgs
  let o := recordOffset index
  let lastNonce ← wordAt eArgs 64 b o
  failIf (nonce ≤ lastNonce) eReceiverArgs
  let total ← received b index
  let total ← okOr (wordCheckedAdd total amount) eReceiverArgs
  let count ← wordAt eArgs 64 b (o + 24)
  let count ← okOr (wordCheckedAdd count 1) eReceiverArgs
  let next := patch (patch (patch b o (toLe nonce)) (o + 8) (toLe total)) (o + 24) (toLe count)
  pure { MessageOutput.success (.fullReplace next) with callbackResultBody := body }

/-- Source: `process` of the receiver -/
def processReceiver (input : MessageInput) : ResultCode MessageOutput := do
  let b := input.state
  failIf (MalformedReceiver b) eReceiverArgs
  let method := input.message.methodId
  if method = Ids.receiverStatus ∨ method = Ids.bind ∨ method = Ids.reject then configure input b
  else match input.caller, input.message with
    | .internal source, .internal message => receive source message b
    | _, _ => .error eReceiverAuth

/-- Source: `Receiver` -/
def receiver : Contract where
  init input := orFailure (initializeReceiver input)
  processMessage input := orFailure (processReceiver input)

/-! ## Errors -/

/-- The errors of a receiver. -/
theorem raises_processReceiver (x : MessageInput) : Raises (processReceiver x) ErrorCode := by
  have hbind : Raises (bindSource x x.state) ErrorCode := by
    unfold bindSource
    refine (raises_failIf fun _ => errorCode rfl).bind fun _ _ => ?_
    refine (raises_addressAt (errorCode rfl)).bind fun _ _ => ?_
    exact (raises_failIf fun _ => errorCode rfl).bind fun _ _ => raises_pure _
  have hreject : Raises (setReject x x.state) ErrorCode := by
    unfold setReject
    exact (raises_failIf fun _ => errorCode rfl).bind fun _ _ => raises_pure _
  have hpayment (b : Bytes) : Raises (readPayment b) ErrorCode := by
    unfold readPayment
    refine (raises_failIf fun _ => errorCode rfl).bind fun _ _ => ?_
    refine (raises_wordAt (errorCode rfl)).bind fun _ _ => ?_
    refine (raises_wordAt (errorCode rfl)).bind fun _ _ => ?_
    exact (raises_failIf fun _ => errorCode rfl).bind fun _ _ => raises_pure _
  unfold processReceiver
  refine (raises_failIf fun _ => errorCode rfl).bind fun _ _ => ?_
  refine Raises.ite (fun _ => ?_) fun _ => ?_
  · unfold configure
    split
    next => exact raises_error (errorCode rfl)
    next =>
      refine (raises_failIf fun _ => errorCode rfl).bind fun _ _ => ?_
      refine Raises.bind ?_ fun _ _ => raises_pure _
      unfold configured
      refine Raises.ite (fun _ => ?_) fun _ => ?_
      · exact Raises.bind (raises_failIf fun _ => errorCode rfl) fun _ _ => raises_pure _
      · refine (raises_arrayAt (errorCode rfl)).bind fun _ _ => ?_
        refine (raises_failIf fun _ => errorCode rfl).bind fun _ _ => ?_
        exact Raises.ite (fun _ => hbind) fun _ => hreject
  · split
    next =>
      unfold receive
      refine Raises.bind (raises_addressAt (errorCode rfl)) fun _ _ => ?_
      refine (raises_failIf fun _ => errorCode rfl).bind fun _ _ => ?_
      refine (raises_failIf fun _ => errorCode rfl).bind fun _ _ => (hpayment _).bind ?_
      rintro ⟨index, kind, nonce, amount⟩ -
      refine (raises_failIf fun _ => errorCode rfl).bind fun _ _ => ?_
      refine Raises.bind (raises_wordAt (errorCode rfl)) fun _ _ => ?_
      refine (raises_failIf fun _ => errorCode rfl).bind fun _ _ => ?_
      refine Raises.bind (raises_wordAt (errorCode rfl)) fun _ _ => ?_
      refine (raises_okOr fun _ => errorCode rfl).bind fun _ _ => ?_
      refine Raises.bind (raises_wordAt (errorCode rfl)) fun _ _ => ?_
      exact (raises_okOr fun _ => errorCode rfl).bind fun _ _ => raises_pure _
    next => exact raises_error (errorCode rfl)

/-- The errors of the deployment of a receiver. -/
theorem raises_initializeReceiver (x : MessageInput) : Raises (initializeReceiver x) ErrorCode := by
  unfold initializeReceiver
  split
  next => exact raises_error (errorCode rfl)
  next =>
    refine (raises_mapError fun _ => errorCode rfl).bind fun _ _ => ?_
    exact (raises_failIf fun _ => errorCode rfl).bind fun _ _ => raises_pure _

/-! ## Fields -/

/-- What a contract that pays cares about in the state of a receiver: the lane, the contract that it
is bound to, the last nonce, and the total. -/
structure ReceiverState (b : Bytes) (kind index : U8) (bound : AccountAddress) (lastNonce : U64)
    (total : U128) : Prop where
  length_eq : b.length = receiverBytes
  index_lt : index.toNat < maxStreams
  kind_at : StandsAt b 97 [kind]
  index_at : StandsAt b 98 [index]
  bound_at : StandsAt b 32 bound.toBytes
  lastNonce_at : StandsAt b (recordOffset index.toNat) (toLe lastNonce)
  total_at : StandsAt b (recordOffset index.toNat + 8) (toLe total)

section

variable {b : Bytes} {kind index : U8} {bound : AccountAddress} {lastNonce : U64} {total : U128}

omit [Target] in
/-- The state of a receiver fits in 32 bits. -/
theorem ReceiverState.lt (h : ReceiverState b kind index bound lastNonce total) :
    b.length < 2 ^ 32 := by
  rw [h.length_eq]
  decide

/-- What has been received is read from it. -/
theorem ReceiverState.received_eq (h : ReceiverState b kind index bound lastNonce total) :
    received b index.toNat = .ok total := by
  unfold received
  exact wordAt_of_standsAt h.lt (by decide) h.total_at

omit [Target] in
/-- A byte that stands in a string. -/
theorem getD_of_standsAt {x : U8} {o : ℕ} (h : StandsAt b o [x]) : b.getD o 0 = x := by
  obtain ⟨hfits, hread⟩ := h
  have hone : b.extract o (o + 1) = [b.getD o 0] := extract_one hfits
  have heq : [b.getD o 0] = [x] := hone.symm.trans hread
  exact (List.cons.inj heq).1

omit [Target] in
/-- A patch outside the fields leaves them. -/
theorem ReceiverState.patched (h : ReceiverState b kind index bound lastNonce total) {o : ℕ} {u : Bytes}
    (hfits : o + u.length ≤ receiverBytes)
    (hbound : o + u.length ≤ 32 ∨ 96 ≤ o) (hlane : o + u.length ≤ 97 ∨ 99 ≤ o)
    (hrecord : o + u.length ≤ recordOffset index.toNat ∨ recordOffset index.toNat + 24 ≤ o) :
    ReceiverState (patch b o u) kind index bound lastNonce total := by
  have hpatch : o + u.length ≤ b.length := by
    rw [h.length_eq]
    exact hfits
  refine ⟨(length_patch hpatch).trans h.length_eq, h.index_lt, h.kind_at.patched hpatch ?_,
    h.index_at.patched hpatch ?_, h.bound_at.patched hpatch ?_, h.lastNonce_at.patched hpatch ?_,
    h.total_at.patched hpatch ?_⟩
  all_goals
    simp only [List.length_singleton, length_toLe, AccountAddress.length_toBytes]
    omega

omit [Target] in
/-- Another contract. -/
theorem ReceiverState.withBound (h : ReceiverState b kind index bound lastNonce total)
    (a : AccountAddress) : ReceiverState (putAddress b 32 a) kind index a lastNonce total := by
  have hlen : b.length = 368 := h.length_eq
  have haddress := a.length_toBytes
  have hfits : 32 + a.toBytes.length ≤ b.length := by omega
  refine ⟨(length_patch hfits).trans h.length_eq, h.index_lt, h.kind_at.patched hfits ?_,
    h.index_at.patched hfits ?_, standsAt_patch hfits, h.lastNonce_at.patched hfits ?_,
    h.total_at.patched hfits ?_⟩
  all_goals
    simp only [List.length_singleton, length_toLe, haddress, recordOffset]
    omega

omit [Target] in
/-- Another record: its last nonce, its total and its count. -/
theorem ReceiverState.withRecord (h : ReceiverState b kind index bound lastNonce total) {o : ℕ}
    (ho : o = recordOffset index.toNat) (nonce : U64) (total' : U128) (count : U64) :
    ReceiverState (patch (patch (patch b o (toLe nonce)) (o + 8) (toLe total')) (o + 24) (toLe count))
      kind index bound nonce total' := by
  have hlen : b.length = 368 := h.length_eq
  have hindex : index.toNat < 8 := h.index_lt
  have hoffset : o = 104 + index.toNat * 32 := ho
  have hnonce : (toLe nonce).length = 8 := length_toLe nonce
  have htotal : (toLe total').length = 16 := length_toLe total'
  have hcount : (toLe count).length = 8 := length_toLe count
  have hfirst : o + (toLe nonce).length ≤ b.length := by omega
  have hsecond : o + 8 + (toLe total').length ≤ (patch b o (toLe nonce)).length := by
    rw [length_patch hfirst]
    omega
  have hthird : o + 24 + (toLe count).length ≤
      (patch (patch b o (toLe nonce)) (o + 8) (toLe total')).length := by
    rw [length_patch hsecond, length_patch hfirst]
    omega
  refine ⟨?_, h.index_lt, ((h.kind_at.patched hfirst ?_).patched hsecond ?_).patched hthird ?_,
    ((h.index_at.patched hfirst ?_).patched hsecond ?_).patched hthird ?_,
    ((h.bound_at.patched hfirst ?_).patched hsecond ?_).patched hthird ?_, ?_, ?_⟩
  · rw [length_patch hthird, length_patch hsecond, length_patch hfirst]
    exact h.length_eq
  all_goals
    try simp only [List.length_singleton, AccountAddress.length_toBytes]
    try omega
  · rw [← ho]
    exact ((standsAt_patch hfirst).patched hsecond (by omega)).patched hthird (by omega)
  · rw [← ho]
    exact (standsAt_patch hsecond).patched hthird (by omega)

omit [Target] in
/-- A fresh receiver. -/
theorem receiverState_fresh (owner : Bytes32) (kind : U8) (hindex : index.toNat < maxStreams) :
    ReceiverState (patch (patch (patch (zeros receiverBytes).val 0 owner.val) 97 [kind]) 98 [index])
      kind index zeroAddress 0 0 := by
  have hlt : index.toNat < 8 := hindex
  have hoffset : recordOffset index.toNat = 104 + index.toNat * 32 := rfl
  have howner : owner.val.length = 32 := owner.property
  have hzeros {o n : ℕ} (h : o + n ≤ receiverBytes) :
      StandsAt (zeros receiverBytes).val o (List.replicate n 0) := standsAt_replicate h
  have hsize : receiverBytes = 368 := rfl
  have hlen : (zeros receiverBytes).val.length = 368 := (zeros receiverBytes).property
  have hfirst : 0 + owner.val.length ≤ (zeros receiverBytes).val.length := by omega
  have hsecond : 97 + [kind].length ≤ (patch (zeros receiverBytes).val 0 owner.val).length := by
    rw [length_patch hfirst, hlen, List.length_singleton]
    decide
  have hthird : 98 + [index].length ≤
      (patch (patch (zeros receiverBytes).val 0 owner.val) 97 [kind]).length := by
    rw [length_patch hsecond, length_patch hfirst, hlen, List.length_singleton]
    decide
  have hfield {o n : ℕ} (hfits : o + n ≤ receiverBytes) (howner : 32 ≤ o)
      (hlane : o + n ≤ 97 ∨ 99 ≤ o) :
      StandsAt (patch (patch (patch (zeros receiverBytes).val 0 owner.val) 97 [kind]) 98 [index]) o
        (List.replicate n 0) := by
    refine (((hzeros hfits).patched hfirst ?_).patched hsecond ?_).patched hthird ?_
    all_goals
      simp only [List.length_replicate, List.length_singleton]
      omega
  refine ⟨?_, hindex, ?_, standsAt_patch hthird, hfield (n := 64) (by omega) (by omega) (by omega),
    hfield (n := 8) (by omega) (by omega) (by omega),
    hfield (n := 16) (by omega) (by omega) (by omega)⟩
  · rw [length_patch hthird, length_patch hsecond, length_patch hfirst, hlen]
    rfl
  · refine (standsAt_patch hsecond).patched hthird (.inl ?_)
    simp only [List.length_singleton]
    omega

/-! ## Calls -/

/-- The receipt of a payment. -/
structure Receipt (source : AccountAddress) (message : InternalMessage) (kind index : U8)
    (bound : AccountAddress) (lastNonce nonce : U64) (total amount : U128) (out : MessageOutput) :
    Prop where
  source_eq : source = bound
  source_ne_zero : nonzeroAddress source
  body_eq : message.body = paymentBody index kind nonce amount
  later : lastNonce < nonce
  amount_eq : principalValue message.extra = some amount
  fits : total.toNat + amount.toNat < 2 ^ 128
  result_eq : out.callbackResultBody = message.body

/-- **A receipt** comes from the contract, and adds its amount to the total. -/
theorem receive_ok (h : ReceiverState b kind index bound lastNonce total) {source : AccountAddress}
    {message : InternalMessage} {out : MessageOutput} (hok : receive source message b = .ok out) :
    ∃ nonce amount, Receipt source message kind index bound lastNonce nonce total amount out ∧
      ∀ old, ReceiverState (out.nextState old) kind index bound nonce (total + amount) := by
  have hbound : addressAt eArgs b 32 = .ok bound := addressAt_of_standsAt h.lt h.bound_at
  have hlast : wordAt eArgs 64 b (recordOffset index.toNat) = .ok lastNonce :=
    wordAt_of_standsAt h.lt (by decide) h.lastNonce_at
  have hkindByte := getD_of_standsAt h.kind_at
  have hindexByte := getD_of_standsAt h.index_at
  simp only [receive, bind_ok_iff, failIf_ok_iff, exists_const, hbound, pure_ok_iff, okOr_ok_iff,
    Except.ok.injEq, exists_eq_left', hkindByte, hindexByte] at hok
  obtain ⟨hsource, -, ⟨i, k, nonce, amount⟩, hpayment, hguard, hok⟩ := hok
  dsimp only at hguard hok
  push Not at hsource hguard
  obtain ⟨rfl, rfl, hamount⟩ := hguard
  obtain ⟨indexByte, kindByte, hi, hk, -, -, -, -, hbody⟩ := readPayment_ok_iff.mp hpayment
  obtain rfl : indexByte = index := BitVec.eq_of_toNat_eq hi
  obtain rfl : kindByte = kind := BitVec.eq_of_toNat_eq hk
  rw [hlast, h.received_eq] at hok
  simp only [Except.ok.injEq, exists_eq_left'] at hok
  obtain ⟨hlater, total', htotal, count, -, count', -, rfl⟩ := hok
  have hadd := wordCheckedAdd_eq_some.mp htotal
  have hfits : total.toNat + amount.toNat < 2 ^ 128 := by
    have hlt := total'.isLt
    omega
  refine ⟨nonce, amount, ⟨hsource.2.1, hsource.2.2.1, hbody, BitVec.not_le.mp hlater, hamount, hfits,
    rfl⟩, fun old => ?_⟩
  obtain rfl : total' = total + amount :=
    BitVec.eq_of_toNat_eq (hadd.symm.trans (BitVec.toNat_add_of_lt hfits).symm)
  exact h.withRecord rfl nonce _ _

/-- A binding names the contract. -/
theorem bindSource_ok (h : ReceiverState b kind index bound lastNonce total) {x : MessageInput}
    {next : Bytes} (hok : bindSource x b = .ok next) :
    ∃ a : AccountAddress, x.message.body = a.toBytes ∧
      ReceiverState next kind index a lastNonce total := by
  simp only [bindSource, bind_ok_iff, failIf_ok_iff, pure_ok_iff, exists_const] at hok
  obtain ⟨hguard, a, ha, -, rfl⟩ := hok
  push Not at hguard
  refine ⟨a, ?_, h.withBound a⟩
  have hbody := (addressAt_ok_iff (by omega) (by omega)).mp ha
  rw [hbody, extract_zero_length hguard.1]

omit [Target] in
/-- A flag leaves the fields. -/
theorem setReject_ok (h : ReceiverState b kind index bound lastNonce total) {x : MessageInput}
    {next : Bytes} (hok : setReject x b = .ok next) :
    ReceiverState next kind index bound lastNonce total := by
  simp only [setReject, bind_ok_iff, failIf_ok_iff, pure_ok_iff, exists_const] at hok
  obtain ⟨-, rfl⟩ := hok
  have hone : [x.message.body.getD 0 0].length = 1 := rfl
  have hsize : receiverBytes = 368 := rfl
  have hrecord : recordOffset index.toNat = 104 + index.toNat * 32 := rfl
  apply h.patched <;> omega

/-- **An accepted call** of a receiver is a receipt, or leaves the last nonce and the total. Only a
binding changes the contract. -/
theorem processReceiver_cases {x : MessageInput}
    (h : ReceiverState x.state kind index bound lastNonce total) {out : MessageOutput}
    (hok : processReceiver x = .ok out) : out.statusCode = 0 ∧
    ((∃ source message, x.caller = .internal source ∧ x.message = .internal message ∧
      ∃ nonce amount, Receipt source message kind index bound lastNonce nonce total amount out ∧
        ∀ old, ReceiverState (out.nextState old) kind index bound nonce (total + amount)) ∨
    ∃ bound', (bound' = bound ∨ x.message.methodId = Ids.bind ∧
        x.message.body = bound'.toBytes) ∧
      ∀ old, ReceiverState (out.nextState old) kind index bound' lastNonce total) := by
  simp only [processReceiver, bind_ok_iff] at hok
  obtain ⟨-, -, hok⟩ := hok
  split_ifs at hok with hmethod
  · unfold configure at hok
    split at hok
    next => exact absurd hok nofun
    next actor hcaller =>
      obtain ⟨_, -, hok⟩ := bind_ok_iff.mp hok
      obtain ⟨next, hnext, hout⟩ := bind_ok_iff.mp hok
      rw [pure_ok_iff] at hout
      subst hout
      refine ⟨rfl, .inr ?_⟩
      unfold configured at hnext
      split_ifs at hnext with hstatus hbind
      · obtain ⟨_, -, hsame⟩ := bind_ok_iff.mp hnext
        rw [pure_ok_iff] at hsame
        subst hsame
        exact ⟨bound, .inl rfl, fun _ => h⟩
      · simp only [bind_ok_iff] at hnext
        obtain ⟨_, -, _, -, hnext⟩ := hnext
        obtain ⟨a, hbody, hstate⟩ := bindSource_ok h hnext
        exact ⟨a, .inr ⟨hbind, hbody⟩, fun _ => hstate⟩
      · simp only [bind_ok_iff] at hnext
        obtain ⟨_, -, _, -, hnext⟩ := hnext
        exact ⟨bound, .inl rfl, fun _ => setReject_ok h hnext⟩
  · split at hok
    next source message hcaller hmessage =>
      obtain ⟨nonce, amount, hreceipt, hstate⟩ := receive_ok h hok
      have hstatus : out.statusCode = 0 := by
        simp only [receive, bind_ok_iff, pure_ok_iff] at hok
        obtain ⟨_, -, _, -, _, -, _, -, _, -, _, -, _, -, _, -, _, -, _, -, _, -, rfl⟩ := hok
        rfl
      exact ⟨hstatus, .inl ⟨source, message, hcaller, hmessage, nonce, amount, hreceipt, hstate⟩⟩
    next => exact absurd hok nofun

/-- **A delivered payment** is a receipt, if it is accepted. -/
theorem receipt_of_receive {x : MessageInput}
    (h : ReceiverState x.state kind index bound lastNonce total) {source : AccountAddress}
    {message : InternalMessage} (hcaller : x.caller = .internal source)
    (hmessage : x.message = .internal message) (hmethod : message.methodId = Ids.receive)
    {out : MessageOutput} (hok : processReceiver x = .ok out) :
    ∃ nonce amount, Receipt source message kind index bound lastNonce nonce total amount out ∧
      ∀ old, ReceiverState (out.nextState old) kind index bound nonce (total + amount) := by
  have hmethod' : x.message.methodId = Ids.receive := by
    rw [hmessage]
    exact hmethod
  simp only [processReceiver, bind_ok_iff, hmethod'] at hok
  obtain ⟨-, -, hok⟩ := hok
  rw [if_neg (by decide), hcaller, hmessage] at hok
  exact receive_ok h hok

/-- **A fresh receiver** is not bound, and has received nothing. -/
theorem initializeReceiver_ok {x : MessageInput} {out : MessageOutput}
    (hok : initializeReceiver x = .ok out) :
    ∃ deploy, x.deploy = .ok deploy ∧
      ∀ old, ReceiverState (out.nextState old) (deploy.initData.getD 0 0) (deploy.initData.getD 1 0)
        zeroAddress 0 0 := by
  unfold initializeReceiver at hok
  split at hok
  next => exact absurd hok nofun
  next owner hcaller =>
    simp only [bind_ok_iff, mapError_ok_iff, failIf_ok_iff, pure_ok_iff, exists_const] at hok
    obtain ⟨deploy, hdeploy, hguard, rfl⟩ := hok
    push Not at hguard
    obtain ⟨-, -, hindex, -⟩ := hguard
    refine ⟨deploy, hdeploy, fun _ => ?_⟩
    generalize deploy.initData.getD 0 0 = kind
    generalize deploy.initData.getD 1 0 = index at hindex ⊢
    exact receiverState_fresh owner kind hindex

end

/-! ## Deployment -/

/-- The deployment of a receiver of one lane at an address, signed by its owner. -/
def receiverDeployment (context : ExecutionContext) (owner : Bytes32) (address : AccountAddress)
    (kind index : U8) : MessageInput :=
  signedInput context (.ofEntries []) []
    { pubkey := owner
      destination := address
      deploys := true
      methodId := 0
      extra := .ofEntries []
      body := deployBody [kind, index] }

section

variable {context : ExecutionContext} {owner : Bytes32} {address : AccountAddress} {kind index : U8}

/-- The init data of a deployment. -/
theorem deploy_receiverDeployment :
    (receiverDeployment context owner address kind index).deploy =
      .ok ⟨zeros 32, zeros 32, [], [], [kind, index]⟩ := by
  apply deploy_signedInput rfl rfl
  exact (by decide : 2 < 2 ^ 31)

/-- **Every account** can be deployed as the receiver of a lane. -/
theorem starts_receiver (howner : owner ≠ zeros 32) (haddress : ¬ isZeroAddress address)
    (hkind : kind ≤ 1) (hindex : index.toNat < maxStreams) :
    receiver.Starts (receiverDeployment context owner address kind index)
      ((receiver.init (receiverDeployment context owner address kind index)).nextState []) := by
  have hwf : (receiverDeployment context owner address kind index).WellFormed := by
    refine signedInput_wellFormed ⟨howner, haddress, CurrencyAmounts.wellFormed_ofEntries_nil, ?_⟩
      CurrencyAmounts.wellFormed_ofEntries_nil (Nat.two_pow_pos 32)
    show (deployBody [kind, index]).length < 2 ^ 31
    rw [length_deployBody]
    exact (by decide : 288 + 2 < 2 ^ 31)
  have hform : ¬ ([kind, index].length ≠ 2 ∨ 1 < [kind, index].getD 0 0 ∨
      maxStreams ≤ ([kind, index].getD 1 0).toNat ∨
      (receiverDeployment context owner address kind index).state ≠ [] ∨
      ¬ (receiverDeployment context owner address kind index).message.extra.isEmpty) := by
    push Not
    exact ⟨rfl, BitVec.not_lt.mpr hkind, hindex, rfl, rfl⟩
  have hok : ∃ out, initializeReceiver (receiverDeployment context owner address kind index) =
      .ok out ∧ out.statusCode = 0 :=
    ⟨_, bind_ok_iff.mpr ⟨_, mapError_ok_iff.mpr deploy_receiverDeployment, bind_ok_iff.mpr
      ⟨(), failIf_ok_iff.mpr hform, pure_ok_iff.mpr rfl⟩⟩, rfl⟩
  obtain ⟨out, hout, hstatus⟩ := hok
  have hinit : receiver.init (receiverDeployment context owner address kind index) = out := by
    show orFailure (initializeReceiver _) = out
    rw [hout]
    rfl
  exact ⟨hwf, by rw [hinit]; exact hstatus, rfl⟩

end

end

end AvmSdk.Vesting
