import AvmSdk.Contracts.Escrow.Ledger
import AvmSdk.Sdk.Input.Signed

/-!
# The receiver of an escrow

The contract `bounty-escrow/contracts/receiver`: an account that can be paid, which counts the
transfers of the one escrow that it is bound to. Its state is a byte string that the code reads and
patches in place.

* `receiver`: the contract. `ReceiverState`: the fields of its state that matter to the escrow.
* `processReceiver_cases`: an accepted call is the receipt of a transfer, a binding, or leaves these
  fields.
* `initializeReceiver_ok`: a fresh receiver is not bound and has received nothing.
* `starts_receiver`: every account can be deployed as a receiver.
-/

namespace AvmSdk.Escrow

open Wire Sdk Contracts

/-- Source: `STATE_BYTES` of the receiver -/
def receiverBytes : ℕ := 136

/-- Source: `ERR_AUTH` of the receiver -/
def errReceiverAuth : U32 := 2100
/-- Source: `ERR_ARGS` of the receiver -/
def errReceiverArgs : U32 := 2101
/-- Source: `ERR_REJECT` -/
def errReject : U32 := 2102

/-- Source: `write_address` -/
def writeAddress (b : Bytes) (o : ℕ) (a : AccountAddress) : Bytes := patch b o a.toBytes

/-- What the state of a receiver must not look like. Source: `process` of the receiver -/
def MalformedReceiver (b : Bytes) : Prop :=
  b.length ≠ receiverBytes ∨ b.extract 129 136 ≠ (zeros 7).val ∨ 1 < b.getD 128 0

instance (b : Bytes) : Decidable (MalformedReceiver b) := inferInstanceAs (Decidable (_ ∨ _))

/-- What the body of a transfer must not look like. Source: `process` of the receiver, `body[..4]` -/
def MalformedTransfer (body : Bytes) : Prop :=
  body.length ≠ 32 ∨ body.extract 0 4 ≠ [0x42, 0x45, 0x50, 0x31] ∨
    body.extract 6 8 ≠ (zeros 2).val ∨ ¬ (body.getD 4 0 = 1 ∨ body.getD 4 0 = 2) ∨
    (body.getD 4 0 = 1 ∧ 8 ≤ body.getD 5 0) ∨ (body.getD 4 0 = 2 ∧ body.getD 5 0 ≠ 255)

instance (body : Bytes) : Decidable (MalformedTransfer body) := inferInstanceAs (Decidable (_ ∨ _))

section

variable [Target]

/-- Source: `received` -/
def received (b : Bytes) : ResultCode U128 := wordAt errReceiverArgs 128 b 104

/-- Source: `Receiver::init` -/
def initializeReceiver (input : MessageInput) : ResultCode MessageOutput :=
  match input.caller with
  | .internal _ => .error errReceiverAuth
  | .external owner => do
      failIf (input.state ≠ [] ∨ input.deploy.toOption.map DeployInput.initData ≠ some [] ∨
        ¬ input.message.extra.isEmpty) errReceiverArgs
      pure (MessageOutput.success (.fullReplace (patch (zeros receiverBytes).val 0 owner.val)))

/-- Source: `process` of the receiver, `ids::BIND` -/
def bindSource (input : MessageInput) (b : Bytes) : ResultCode Bytes := do
  let body := input.message.body
  failIf (body.length ≠ 64 ∨ b.extract 32 96 ≠ (zeros 64).val) errReceiverArgs
  let source ← addressAt errReceiverArgs body 0
  failIf (source.accountId = zeros 32 ∨ source.dappId = zeros 32 ∨ source = input.destination)
    errReceiverArgs
  pure (writeAddress b 32 source)

/-- Source: `process` of the receiver, `ids::REJECT` -/
def setReject (input : MessageInput) (b : Bytes) : ResultCode Bytes := do
  let body := input.message.body
  failIf (body.length ≠ 1 ∨ 1 < body.getD 0 0) errReceiverArgs
  pure (patch b 128 [body.getD 0 0])

/-- The state after a call of the owner. Source: `process` of the receiver,
`if input.message.method_id() == ids::BIND` -/
def configured (input : MessageInput) (b : Bytes) : ResultCode Bytes :=
  if input.message.methodId = Ids.bind then bindSource input b else setReject input b

/-- Source: `process` of the receiver, `ids::BIND` and `ids::REJECT` -/
def configure (input : MessageInput) (owner : Bytes32) (b : Bytes) : ResultCode MessageOutput := do
  failIf (input.caller ≠ .external owner) errReceiverAuth
  failIf (¬ input.message.extra.isEmpty) errReceiverArgs
  let next ← configured input b
  pure (MessageOutput.success (.fullReplace next))

/-- Source: `process` of the receiver, after `let (Caller::Internal(source), …)` -/
def receive (source : AccountAddress) (message : InternalMessage) (b : Bytes) :
    ResultCode MessageOutput := do
  let bound ← addressAt errReceiverArgs b 32
  failIf (source ≠ bound ∨ message.methodId ≠ Ids.receive ∨
    (CanonicalMessage.internal message).isCallback ∨
    ¬ (CanonicalMessage.internal message).hasCallbackRequest) errReceiverAuth
  failIf (b.getD 128 0 = 1) errReject
  let body := message.body
  failIf (MalformedTransfer body ∨ message.extra.len ≠ 1) errReceiverArgs
  let attempt ← wordAt errReceiverArgs 64 body 8
  let amount ← wordAt errReceiverArgs 128 body 16
  let lastAttempt ← wordAt errReceiverArgs 64 b 96
  failIf (attempt ≤ lastAttempt ∨ amount = 0 ∨ principal message.extra ≠ amount) errReceiverArgs
  let total ← received b
  let total ← okOr (wordCheckedAdd total amount) errReceiverArgs
  let count ← wordAt errReceiverArgs 64 b 120
  let count ← okOr (wordCheckedAdd count 1) errReceiverArgs
  let next := patch (patch (patch b 96 (toLe attempt)) 104 (toLe total)) 120 (toLe count)
  pure { MessageOutput.success (.fullReplace next) with callbackResultBody := body }

/-- Source: `process` of the receiver -/
def processReceiver (input : MessageInput) : ResultCode MessageOutput := do
  let b := input.state
  failIf (MalformedReceiver b) errReceiverArgs
  let owner ← arrayAt errReceiverArgs 32 b 0
  let method := input.message.methodId
  if method = Ids.bind ∨ method = Ids.reject then configure input owner b
  else match input.caller, input.message with
    | .internal source, .internal message => receive source message b
    | _, _ => .error errReceiverAuth

/-- Source: `Receiver` -/
def receiver : Contract where
  init input := orFailure (initializeReceiver input)
  processMessage input := orFailure (processReceiver input)

/-! ## Errors -/

/-- The errors of a receiver. -/
theorem raises_processReceiver (x : MessageInput) : Raises (processReceiver x) ErrorCode := by
  have hbind : Raises (bindSource x x.state) ErrorCode := by
    unfold bindSource
    refine (raises_failIf fun _ => errorCode rfl).bind fun _ _ => ?_
    refine (raises_addressAt (errorCode rfl)).bind fun _ _ => ?_
    exact (raises_failIf fun _ => errorCode rfl).bind fun _ _ => raises_pure _
  have hreject : Raises (setReject x x.state) ErrorCode := by
    unfold setReject
    exact (raises_failIf fun _ => errorCode rfl).bind fun _ _ => raises_pure _
  unfold processReceiver
  refine (raises_failIf fun _ => errorCode rfl).bind fun _ _ => ?_
  refine (raises_arrayAt (errorCode rfl)).bind fun _ _ => ?_
  refine Raises.ite (fun _ => ?_) fun _ => ?_
  · unfold configure
    refine (raises_failIf fun _ => errorCode rfl).bind fun _ _ => ?_
    refine (raises_failIf fun _ => errorCode rfl).bind fun _ _ => ?_
    refine Raises.bind ?_ fun _ _ => raises_pure _
    exact Raises.ite (fun _ => hbind) fun _ => hreject
  · split
    next =>
      unfold receive
      refine Raises.bind (raises_addressAt (errorCode rfl)) fun _ _ => ?_
      refine (raises_failIf fun _ => errorCode rfl).bind fun _ _ => ?_
      refine (raises_failIf fun _ => errorCode rfl).bind fun _ _ => ?_
      refine (raises_failIf fun _ => errorCode rfl).bind fun _ _ => ?_
      refine (raises_wordAt (errorCode rfl)).bind fun _ _ => ?_
      refine (raises_wordAt (errorCode rfl)).bind fun _ _ => ?_
      refine (raises_wordAt (errorCode rfl)).bind fun _ _ => ?_
      refine (raises_failIf fun _ => errorCode rfl).bind fun _ _ => ?_
      refine Raises.bind (raises_wordAt (errorCode rfl)) fun _ _ => ?_
      refine (raises_okOr fun _ => errorCode rfl).bind fun _ _ => ?_
      refine (raises_wordAt (errorCode rfl)).bind fun _ _ => ?_
      exact (raises_okOr fun _ => errorCode rfl).bind fun _ _ => raises_pure _
    next => exact raises_error (errorCode rfl)

/-- The errors of the deployment of a receiver. -/
theorem raises_initializeReceiver (x : MessageInput) : Raises (initializeReceiver x) ErrorCode := by
  unfold initializeReceiver
  split
  next => exact raises_error (errorCode rfl)
  next => exact (raises_failIf fun _ => errorCode rfl).bind fun _ _ => raises_pure _

/-! ## Fields -/

/-- What the escrow cares about in the state of a receiver: the escrow that it is bound to, the last
attempt, and the total. -/
structure ReceiverState (b : Bytes) (bound : AccountAddress) (lastAttempt : U64) (total : U128) :
    Prop where
  length_eq : b.length = receiverBytes
  bound_at : StandsAt b 32 bound.toBytes
  lastAttempt_at : StandsAt b 96 (toLe lastAttempt)
  total_at : StandsAt b 104 (toLe total)

section

variable {b : Bytes} {bound : AccountAddress} {lastAttempt : U64} {total : U128}

omit [Target] in
/-- The state of a receiver fits in 32 bits. -/
theorem ReceiverState.lt (h : ReceiverState b bound lastAttempt total) : b.length < 2 ^ 32 := by
  rw [h.length_eq]
  decide

/-- What has been received is read from it. -/
theorem ReceiverState.received_eq (h : ReceiverState b bound lastAttempt total) :
    received b = .ok total :=
  wordAt_of_standsAt h.lt (by decide) h.total_at

omit [Target] in
/-- A patch outside the fields leaves them. -/
theorem ReceiverState.patched (h : ReceiverState b bound lastAttempt total) {o : ℕ} {u : Bytes}
    (hfits : o + u.length ≤ receiverBytes) (ho : 120 ≤ o) :
    ReceiverState (patch b o u) bound lastAttempt total := by
  have hpatch : o + u.length ≤ b.length := by
    rw [h.length_eq]
    exact hfits
  refine ⟨(length_patch hpatch).trans h.length_eq, h.bound_at.patched hpatch ?_,
    h.lastAttempt_at.patched hpatch ?_, h.total_at.patched hpatch ?_⟩
  all_goals
    simp only [length_toLe, AccountAddress.length_toBytes]
    omega

omit [Target] in
/-- Another escrow. -/
theorem ReceiverState.withBound (h : ReceiverState b bound lastAttempt total) (a : AccountAddress) :
    ReceiverState (writeAddress b 32 a) a lastAttempt total := by
  have hlen : b.length = 136 := h.length_eq
  have haddress := a.length_toBytes
  have hfits : 32 + a.toBytes.length ≤ b.length := by omega
  refine ⟨(length_patch hfits).trans h.length_eq, standsAt_patch hfits,
    h.lastAttempt_at.patched hfits ?_, h.total_at.patched hfits ?_⟩
  all_goals
    simp only [length_toLe, haddress]
    omega

omit [Target] in
/-- Another record: the last attempt, the total and the count. -/
theorem ReceiverState.withRecord (h : ReceiverState b bound lastAttempt total) (attempt : U64)
    (total' : U128) (count : U64) :
    ReceiverState (patch (patch (patch b 96 (toLe attempt)) 104 (toLe total')) 120 (toLe count))
      bound attempt total' := by
  have hlen : b.length = 136 := h.length_eq
  have hattempt : (toLe attempt).length = 8 := length_toLe attempt
  have htotal : (toLe total').length = 16 := length_toLe total'
  have hcount : (toLe count).length = 8 := length_toLe count
  have hfirst : 96 + (toLe attempt).length ≤ b.length := by omega
  have hsecond : 104 + (toLe total').length ≤ (patch b 96 (toLe attempt)).length := by
    rw [length_patch hfirst]
    omega
  have hthird : 120 + (toLe count).length ≤
      (patch (patch b 96 (toLe attempt)) 104 (toLe total')).length := by
    rw [length_patch hsecond, length_patch hfirst]
    omega
  refine ⟨?_, ((h.bound_at.patched hfirst ?_).patched hsecond ?_).patched hthird ?_,
    ((standsAt_patch hfirst).patched hsecond (by omega)).patched hthird (by omega),
    (standsAt_patch hsecond).patched hthird (by omega)⟩
  · rw [length_patch hthird, length_patch hsecond, length_patch hfirst]
    exact h.length_eq
  all_goals
    simp only [AccountAddress.length_toBytes]
    omega

omit [Target] in
/-- A fresh receiver. -/
theorem receiverState_fresh (owner : Bytes32) :
    ReceiverState (patch (zeros receiverBytes).val 0 owner.val) zeroAddress 0 0 := by
  have hsize : receiverBytes = 136 := rfl
  have howner : owner.val.length = 32 := owner.property
  have hlen : (zeros receiverBytes).val.length = 136 := (zeros receiverBytes).property
  have hfits : 0 + owner.val.length ≤ (zeros receiverBytes).val.length := by omega
  have hfield {o n : ℕ} (hn : o + n ≤ receiverBytes) (ho : 32 ≤ o) :
      StandsAt (patch (zeros receiverBytes).val 0 owner.val) o (List.replicate n 0) :=
    (standsAt_replicate hn).patched hfits (.inr (by omega))
  refine ⟨(length_patch hfits).trans hlen, hfield (n := 64) (by omega) (by omega),
    hfield (n := 8) (by omega) (by omega), hfield (n := 16) (by omega) (by omega)⟩

/-! ## Calls -/

/-- The amount in the body of a transfer. -/
def bodyAmount (body : Bytes) : U128 := ofLe 128 (body.extract 16 32)

omit [Target] in
/-- The amount that a payment names. -/
@[simp] theorem bodyAmount_paymentBody (p : Pending) : bodyAmount (paymentBody p) = p.amount := by
  have hfront : ([0x42, 0x45, 0x50, 0x31] ++ [p.kind, p.index, 0, 0] ++ toLe p.attempt).length =
      16 := by simp
  have hextract : (paymentBody p).extract 16 32 = toLe p.amount := by
    rw [List.extract_eq_take_drop, paymentBody, List.drop_left' hfront]
    exact List.take_of_length_le (by rw [length_toLe])
  rw [bodyAmount, hextract, ofLe_toLe (by decide)]

/-- The receipt of a transfer. -/
structure Receipt (source : AccountAddress) (message : InternalMessage) (bound : AccountAddress)
    (lastAttempt attempt : U64) (total amount : U128) (out : MessageOutput) : Prop where
  source_eq : source = bound
  later : lastAttempt < attempt
  amount_eq : amount = bodyAmount message.body
  value_eq : principal message.extra = amount
  fits : total.toNat + amount.toNat < 2 ^ 128
  result_eq : out.callbackResultBody = message.body
  status_eq : out.statusCode = 0

/-- **A receipt** comes from the escrow, and adds its amount to the total. -/
theorem receive_ok (h : ReceiverState b bound lastAttempt total) {source : AccountAddress}
    {message : InternalMessage} {out : MessageOutput} (hok : receive source message b = .ok out) :
    ∃ attempt amount, Receipt source message bound lastAttempt attempt total amount out ∧
      ∀ old, ReceiverState (out.nextState old) bound attempt (total + amount) := by
  have hbound : addressAt errReceiverArgs b 32 = .ok bound := addressAt_of_standsAt h.lt h.bound_at
  have hlast : wordAt errReceiverArgs 64 b 96 = .ok lastAttempt :=
    wordAt_of_standsAt h.lt (by decide) h.lastAttempt_at
  simp only [receive, bind_ok_iff, failIf_ok_iff, exists_const, hbound, pure_ok_iff, okOr_ok_iff,
    Except.ok.injEq, exists_eq_left', hlast, h.received_eq] at hok
  obtain ⟨hsource, -, hform, attempt, -, amount, hamount, hguard, total', htotal, count, -, count', -,
    rfl⟩ := hok
  push Not at hsource hguard
  have hsmall : message.body.length = 32 := by
    by_contra hno
    exact hform (.inl (.inl hno))
  have hbody : amount = bodyAmount message.body := by
    have hread := (wordAt_ok_iff (by omega) (by decide) (by omega)).mp hamount
    rw [bodyAmount, ← hread, ofLe_toLe (by decide)]
  have hadd := wordCheckedAdd_eq_some.mp htotal
  have hfits : total.toNat + amount.toNat < 2 ^ 128 := by
    have hlt := total'.isLt
    omega
  refine ⟨attempt, amount, ⟨hsource.1, BitVec.not_le.mp hguard.1, hbody, hguard.2.2, hfits, rfl, rfl⟩,
    fun old => ?_⟩
  obtain rfl : total' = total + amount :=
    BitVec.eq_of_toNat_eq (hadd.symm.trans (BitVec.toNat_add_of_lt hfits).symm)
  exact h.withRecord attempt _ _

/-- A binding names the escrow. -/
theorem bindSource_ok (h : ReceiverState b bound lastAttempt total) {x : MessageInput}
    {next : Bytes} (hok : bindSource x b = .ok next) :
    ∃ a : AccountAddress, x.message.body = a.toBytes ∧ ReceiverState next a lastAttempt total := by
  simp only [bindSource, bind_ok_iff, failIf_ok_iff, pure_ok_iff, exists_const] at hok
  obtain ⟨hguard, a, ha, -, rfl⟩ := hok
  push Not at hguard
  refine ⟨a, ?_, h.withBound a⟩
  have hbody := (addressAt_ok_iff (by omega) (by omega)).mp ha
  rw [hbody, extract_zero_length hguard.1]

omit [Target] in
/-- A flag leaves the fields. -/
theorem setReject_ok (h : ReceiverState b bound lastAttempt total) {x : MessageInput}
    {next : Bytes} (hok : setReject x b = .ok next) :
    ReceiverState next bound lastAttempt total := by
  simp only [setReject, bind_ok_iff, failIf_ok_iff, pure_ok_iff, exists_const] at hok
  obtain ⟨-, rfl⟩ := hok
  have hone : [x.message.body.getD 0 0].length = 1 := rfl
  have hsize : receiverBytes = 136 := rfl
  apply h.patched <;> omega

/-- **An accepted call** of a receiver is a receipt, or leaves the last attempt and the total. Only a
binding changes the escrow. -/
theorem processReceiver_cases {x : MessageInput} (h : ReceiverState x.state bound lastAttempt total)
    {out : MessageOutput} (hok : processReceiver x = .ok out) : out.statusCode = 0 ∧
    ((∃ source message, x.caller = .internal source ∧ x.message = .internal message ∧
      ∃ attempt amount, Receipt source message bound lastAttempt attempt total amount out ∧
        ∀ old, ReceiverState (out.nextState old) bound attempt (total + amount)) ∨
    ∃ bound', (bound' = bound ∨ x.message.methodId = Ids.bind ∧ x.message.body = bound'.toBytes) ∧
      ∀ old, ReceiverState (out.nextState old) bound' lastAttempt total) := by
  simp only [processReceiver, bind_ok_iff] at hok
  obtain ⟨-, -, owner, -, hok⟩ := hok
  split_ifs at hok with hmethod
  · simp only [configure, bind_ok_iff, pure_ok_iff] at hok
    obtain ⟨_, -, _, -, next, hnext, rfl⟩ := hok
    refine ⟨rfl, .inr ?_⟩
    unfold configured at hnext
    split_ifs at hnext with hbind
    · obtain ⟨a, hbody, hstate⟩ := bindSource_ok h hnext
      exact ⟨a, .inr ⟨hbind, hbody⟩, fun _ => hstate⟩
    · exact ⟨bound, .inl rfl, fun _ => setReject_ok h hnext⟩
  · split at hok
    next source message hcaller hmessage =>
      obtain ⟨attempt, amount, hreceipt, hstate⟩ := receive_ok h hok
      exact ⟨hreceipt.status_eq, .inl ⟨source, message, hcaller, hmessage, attempt, amount, hreceipt,
        hstate⟩⟩
    next => cases hok

/-- **A delivered transfer** is a receipt, if it is accepted. -/
theorem receipt_of_receive {x : MessageInput} (h : ReceiverState x.state bound lastAttempt total)
    {source : AccountAddress} {message : InternalMessage} (hcaller : x.caller = .internal source)
    (hmessage : x.message = .internal message) (hmethod : message.methodId = Ids.receive)
    {out : MessageOutput} (hok : processReceiver x = .ok out) :
    ∃ attempt amount, Receipt source message bound lastAttempt attempt total amount out ∧
      ∀ old, ReceiverState (out.nextState old) bound attempt (total + amount) := by
  have hmethod' : x.message.methodId = Ids.receive := by
    rw [hmessage]
    exact hmethod
  simp only [processReceiver, bind_ok_iff, hmethod'] at hok
  obtain ⟨-, -, owner, -, hok⟩ := hok
  rw [if_neg (by decide), hcaller, hmessage] at hok
  exact receive_ok h hok

/-- **A fresh receiver** is not bound, and has received nothing. -/
theorem initializeReceiver_ok {x : MessageInput} {out : MessageOutput}
    (hok : initializeReceiver x = .ok out) :
    ∀ old, ReceiverState (out.nextState old) zeroAddress 0 0 := by
  unfold initializeReceiver at hok
  split at hok
  next => exact absurd hok nofun
  next owner hcaller =>
    simp only [bind_ok_iff, pure_ok_iff] at hok
    obtain ⟨_, -, rfl⟩ := hok
    exact fun _ => receiverState_fresh owner

end

/-! ## Deployment -/

/-- The deployment of a receiver at an address, signed by its owner. -/
def receiverDeployment (context : ExecutionContext) (owner : Bytes32) (address : AccountAddress) :
    MessageInput :=
  signedInput context (.ofEntries []) []
    { pubkey := owner
      destination := address
      deploys := true
      methodId := 0
      extra := .ofEntries []
      body := deployBody [] }

section

variable {context : ExecutionContext} {owner : Bytes32} {address : AccountAddress}

/-- **Every account** can be deployed as a receiver. -/
theorem starts_receiver (howner : owner ≠ zeros 32) (haddress : ¬ isZeroAddress address) :
    receiver.Starts (receiverDeployment context owner address)
      ((receiver.init (receiverDeployment context owner address)).nextState []) := by
  have hwf : (receiverDeployment context owner address).WellFormed := by
    refine signedInput_wellFormed ⟨howner, haddress, CurrencyAmounts.wellFormed_ofEntries_nil, ?_⟩
      CurrencyAmounts.wellFormed_ofEntries_nil (Nat.two_pow_pos 32)
    show (deployBody []).length < 2 ^ 31
    rw [length_deployBody]
    exact (by decide : 288 + 0 < 2 ^ 31)
  have hdeploy : (receiverDeployment context owner address).deploy =
      .ok ⟨zeros 32, zeros 32, [], [], []⟩ :=
    deploy_signedInput rfl rfl (Nat.two_pow_pos 31)
  have hform : ¬ ((receiverDeployment context owner address).state ≠ [] ∨
      (receiverDeployment context owner address).deploy.toOption.map DeployInput.initData ≠ some [] ∨
      ¬ (receiverDeployment context owner address).message.extra.isEmpty) := by
    rw [hdeploy]
    push Not
    exact ⟨rfl, rfl, rfl⟩
  obtain ⟨out, hout, hstatus⟩ : ∃ out, initializeReceiver (receiverDeployment context owner address) =
      .ok out ∧ out.statusCode = 0 :=
    ⟨_, bind_ok_iff.mpr ⟨(), failIf_ok_iff.mpr hform, pure_ok_iff.mpr rfl⟩, rfl⟩
  have hinit : receiver.init (receiverDeployment context owner address) = out := by
    show orFailure (initializeReceiver _) = out
    rw [hout]
    rfl
  exact ⟨hwf, by rw [hinit]; exact hstatus, rfl⟩

end

end

end AvmSdk.Escrow
