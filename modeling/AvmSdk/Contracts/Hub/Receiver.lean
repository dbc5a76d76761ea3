import AvmSdk.Contracts.Hub.Core
import AvmSdk.Sdk.Input.Signed
import AvmSdk.Wire.Patch

/-!
# The receiver of a payment

The contract `revenue-hub/contracts/receiver`: the account of a member, which counts the payments of
the one vault that it is bound to. Its state is a byte string that the code reads and patches in
place.

* `payoutReceiver`: the contract. `ReceiverState`: the fields of its state that matter to the vault.
* `processReceiver_cases`: an accepted call is the receipt of a payment, a binding, or leaves these
  fields.
* `initializeReceiver_ok`: a fresh receiver is not bound and has received nothing.
* `starts_receiver`: every account of an application can be deployed as a receiver.
-/

namespace AvmSdk.Hub

open Wire Sdk Contracts

/-- Source: `STATE_BYTES` of the receiver -/
def receiverBytes : ℕ := 224

/-- Source: `E_RECEIVER_AUTH` -/
def eReceiverAuth : U32 := 3100
/-- Source: `E_RECEIVER_ARGS` -/
def eReceiverArgs : U32 := 3101
/-- Source: `E_REJECT` -/
def eReject : U32 := 3102

/-- Source: `put_address` -/
def putAddress (b : Bytes) (o : ℕ) (a : AccountAddress) : Bytes := patch b o a.toBytes

section

variable [Target]

/-- Source: `received` -/
def received (b : Bytes) : HubResult U128 := wordAt eArgs 128 b 176

/-- Source: `vault_address` -/
def vaultAddress (b : Bytes) : HubResult AccountAddress := addressAt eArgs b 96

/-- Source: `initialize` of the receiver -/
def initializeReceiver (input : MessageInput) : HubResult MessageOutput :=
  match input.caller with
  | .internal _ => .error eReceiverAuth
  | .external owner => do
      let deploy ← input.deploy.mapError fun _ => eArgs
      let body := deploy.initData
      failIf (body.length ≠ 88 ∨ body.extract 65 72 ≠ (zeros 7).val ∨
        maxMembers ≤ (body.getD 64 0).toNat ∨ input.state ≠ [] ∨ ¬ input.message.extra.isEmpty)
        eReceiverArgs
      let audit ← addressAt eArgs body 0
      let fuel ← wordAt eArgs 128 body 72
      failIf (¬ nonzeroAddress audit ∨ audit = input.destination ∨
        audit.dappId ≠ input.destination.dappId ∨ fuel = 0) eReceiverArgs
      let b := patch (zeros receiverBytes).val 0 owner.val
      let b := putAddress b 32 audit
      let b := patch b 160 [body.getD 64 0]
      let b := patch b 200 (toLe fuel)
      pure (MessageOutput.success (.fullReplace b))

/-- What the state of a receiver must look like. Source: `process` of the receiver -/
def MalformedReceiver (b : Bytes) : Prop :=
  b.length ≠ receiverBytes ∨ b.extract 162 168 ≠ (zeros 6).val ∨
    b.extract 217 224 ≠ (zeros 7).val ∨ 1 < b.getD 216 0 ∨ 1 < b.getD 161 0 ∨
    maxMembers ≤ (b.getD 160 0).toNat

instance (b : Bytes) : Decidable (MalformedReceiver b) := inferInstanceAs (Decidable (_ ∨ _))

/-- Source: `process` of the receiver, `method == ids::RECEIVER_STATUS` -/
def receiverStatus (input : MessageInput) (b : Bytes) : HubResult MessageOutput :=
  match input.caller with
  | .internal _ => .error eReceiverAuth
  | .external _ => do
      noBody eArgs input.message.body
      failIf (¬ input.message.extra.isEmpty) eReceiverArgs
      pure (MessageOutput.success (.fullReplace b))

/-- Source: `process` of the receiver, `method == ids::BIND` -/
def bindVault (input : MessageInput) (b : Bytes) : HubResult Bytes := do
  let body := input.message.body
  failIf (body.length ≠ 64 ∨ b.extract 96 160 ≠ (zeros 64).val) eReceiverArgs
  let vault ← addressAt eArgs body 0
  failIf (¬ nonzeroAddress vault ∨ vault = input.destination ∨
    vault.dappId ≠ input.destination.dappId) eReceiverArgs
  pure (putAddress b 96 vault)

/-- Source: `process` of the receiver, `method == ids::REJECT || method == ids::DUPLICATE_AUDIT` -/
def setFlag (input : MessageInput) (b : Bytes) : HubResult Bytes := do
  let body := input.message.body
  failIf (body.length ≠ 1 ∨ 1 < body.getD 0 0) eReceiverArgs
  pure (patch b (if input.message.methodId = Ids.reject then 161 else 216) [body.getD 0 0])

/-- Source: `process` of the receiver,
`method == ids::BIND || method == ids::REJECT || method == ids::DUPLICATE_AUDIT` -/
def manage (input : MessageInput) (owner : Bytes32) (b : Bytes) : HubResult MessageOutput := do
  failIf (input.caller ≠ .external owner) eReceiverAuth
  failIf (¬ input.message.extra.isEmpty) eReceiverArgs
  let next ← if input.message.methodId = Ids.bind then bindVault input b else setFlag input b
  pure (MessageOutput.success (.fullReplace next))

/-- The report of a receipt to the audit ledger. Source: `process` of the receiver,
`OutboundIntent` -/
def auditReport (audit : AccountAddress) (fuel : U128) (body : Bytes) : OutboundIntent where
  inputIndex := 0
  destination := audit
  fuelFeeShells := fuel
  extra := []
  methodId := Ids.auditRecord
  body := body

/-- Source: `process` of the receiver, `method != ids::RECEIVE` and what follows -/
def receive (source : AccountAddress) (message : InternalMessage) (b : Bytes) :
    HubResult MessageOutput := do
  let bound ← vaultAddress b
  failIf (source ≠ bound ∨ message.methodId ≠ Ids.receive ∨
    ¬ (CanonicalMessage.internal message).hasCallbackRequest ∨
    (CanonicalMessage.internal message).isCallback) eReceiverAuth
  failIf (b.getD 161 0 = 1) eReject
  let body := message.body
  let (index, nonce, amount) ← readPayment body
  let lastNonce ← wordAt eArgs 64 b 168
  failIf (index ≠ (b.getD 160 0).toNat ∨ nonce ≤ lastNonce ∨ amount ≠ principal message.extra ∨
    message.extra.len ≠ 1) eReceiverArgs
  let total ← received b
  let total ← okOr (wordCheckedAdd total amount) eReceiverArgs
  let count ← wordAt eArgs 64 b 192
  let count ← okOr (wordCheckedAdd count 1) eReceiverArgs
  let next := patch (patch (patch b 168 (toLe nonce)) 176 (toLe total)) 192 (toLe count)
  let audit ← addressAt eArgs b 32
  let fuel ← wordAt eArgs 128 b 200
  let report := auditReport audit fuel body
  pure { MessageOutput.success (.fullReplace next) with
    callbackResultBody := body
    outboundIntents := if b.getD 216 0 = 1 then [report, report] else [report] }

/-- Source: `process` of the receiver -/
def processReceiver (input : MessageInput) : HubResult MessageOutput := do
  let b := input.state
  failIf (MalformedReceiver b) eReceiverArgs
  let owner ← arrayAt eArgs 32 b 0
  let method := input.message.methodId
  if method = Ids.receiverStatus then receiverStatus input b
  else if method = Ids.bind ∨ method = Ids.reject ∨ method = Ids.duplicateAudit then
    manage input owner b
  else match input.caller, input.message with
    | .internal source, .internal message => receive source message b
    | _, _ => .error eReceiverAuth

/-- Source: `PayoutReceiver` -/
def payoutReceiver : Contract where
  init input := orFailure (initializeReceiver input)
  processMessage input := orFailure (processReceiver input)

/-! ## Errors -/

/-- The errors of a receiver. -/
theorem raises_processReceiver (x : MessageInput) : Raises (processReceiver x) ErrorCode := by
  have hbind : Raises (bindVault x x.state) ErrorCode := by
    unfold bindVault
    refine (raises_failIf fun _ => errorCode rfl).bind fun _ _ => ?_
    refine (raises_addressAt (errorCode rfl)).bind fun _ _ => ?_
    exact (raises_failIf fun _ => errorCode rfl).bind fun _ _ => raises_pure _
  have hflag : Raises (setFlag x x.state) ErrorCode := by
    unfold setFlag
    exact (raises_failIf fun _ => errorCode rfl).bind fun _ _ => raises_pure _
  have hmanage (owner : Bytes32) : Raises (manage x owner x.state) ErrorCode := by
    unfold manage
    refine (raises_failIf fun _ => errorCode rfl).bind fun _ _ => ?_
    refine (raises_failIf fun _ => errorCode rfl).bind fun _ _ => Raises.ite (fun _ => ?_) fun _ => ?_
    · exact hbind.bind fun _ _ => raises_pure _
    · exact hflag.bind fun _ _ => raises_pure _
  have hreceive (source : AccountAddress) (message : InternalMessage) :
      Raises (receive source message x.state) ErrorCode := by
    unfold receive
    refine Raises.bind (raises_addressAt (errorCode rfl)) fun _ _ => ?_
    refine (raises_failIf fun _ => errorCode rfl).bind fun _ _ => ?_
    refine (raises_failIf fun _ => errorCode rfl).bind fun _ _ => raises_readPayment.bind ?_
    rintro ⟨index, nonce, amount⟩ -
    refine (raises_wordAt (errorCode rfl)).bind fun _ _ => ?_
    refine (raises_failIf fun _ => errorCode rfl).bind fun _ _ => ?_
    refine Raises.bind (raises_wordAt (errorCode rfl)) fun _ _ => ?_
    refine (raises_okOr fun _ => errorCode rfl).bind fun _ _ => ?_
    refine (raises_wordAt (errorCode rfl)).bind fun _ _ => ?_
    refine (raises_okOr fun _ => errorCode rfl).bind fun _ _ => ?_
    refine (raises_addressAt (errorCode rfl)).bind fun _ _ => ?_
    exact (raises_wordAt (errorCode rfl)).bind fun _ _ => raises_pure _
  unfold processReceiver
  refine (raises_failIf fun _ => errorCode rfl).bind fun _ _ => ?_
  refine (raises_arrayAt (errorCode rfl)).bind fun owner _ => ?_
  refine Raises.ite (fun _ => ?_) fun _ => Raises.ite (fun _ => hmanage owner) fun _ => ?_
  · unfold receiverStatus
    split
    next => exact raises_error (errorCode rfl)
    next =>
      refine (raises_failIf fun _ => errorCode rfl).bind fun _ _ => ?_
      exact (raises_failIf fun _ => errorCode rfl).bind fun _ _ => raises_pure _
  · split
    next => exact hreceive _ _
    next => exact raises_error (errorCode rfl)

/-- The errors of the deployment of a receiver. -/
theorem raises_initializeReceiver (x : MessageInput) :
    Raises (initializeReceiver x) ErrorCode := by
  unfold initializeReceiver
  split
  next => exact raises_error (errorCode rfl)
  next =>
    refine (raises_mapError fun _ => errorCode rfl).bind fun _ _ => ?_
    refine (raises_failIf fun _ => errorCode rfl).bind fun _ _ => ?_
    refine (raises_addressAt (errorCode rfl)).bind fun _ _ => ?_
    refine (raises_wordAt (errorCode rfl)).bind fun _ _ => ?_
    exact (raises_failIf fun _ => errorCode rfl).bind fun _ _ => raises_pure _

/-- An accepted call of a receiver reports no error. -/
theorem statusCode_of_processReceiver {x : MessageInput} {out : MessageOutput}
    (hok : processReceiver x = .ok out) : out.statusCode = 0 := by
  simp only [processReceiver, bind_ok_iff] at hok
  obtain ⟨-, -, owner, -, hok⟩ := hok
  split_ifs at hok with hstatus hmanage
  · unfold receiverStatus at hok
    split at hok
    next => exact absurd hok nofun
    next =>
      simp only [bind_ok_iff, pure_ok_iff] at hok
      obtain ⟨_, -, _, -, rfl⟩ := hok
      rfl
  · simp only [manage, bind_ok_iff] at hok
    obtain ⟨_, -, _, -, hok⟩ := hok
    split_ifs at hok with hbind
    · obtain ⟨next, -, hout⟩ := bind_ok_iff.mp hok
      rw [pure_ok_iff] at hout
      rw [← hout]
      rfl
    · obtain ⟨next, -, hout⟩ := bind_ok_iff.mp hok
      rw [pure_ok_iff] at hout
      rw [← hout]
      rfl
  · split at hok
    next =>
      simp only [receive, bind_ok_iff, pure_ok_iff] at hok
      obtain ⟨_, -, _, -, _, -, _, -, _, -, _, -, _, -, _, -, _, -, _, -, _, -, _, -, rfl⟩ := hok
      rfl
    next => exact absurd hok nofun

/-! ## Fields -/

/-- What a vault cares about in the state of a receiver: the index, the vault that it is bound to,
the last nonce, and the total. -/
structure ReceiverState (b : Bytes) (index : U8) (bound : AccountAddress) (lastNonce : U64)
    (total : U128) : Prop where
  length_eq : b.length = receiverBytes
  index_eq : b.extract 160 161 = [index]
  bound_eq : b.extract 96 160 = bound.toBytes
  lastNonce_eq : b.extract 168 176 = toLe lastNonce
  total_eq : b.extract 176 192 = toLe total

section

variable {b : Bytes} {index : U8} {bound : AccountAddress} {lastNonce : U64} {total : U128}

omit [Target] in
/-- The state of a receiver fits in 32 bits. -/
theorem ReceiverState.lt (h : ReceiverState b index bound lastNonce total) :
    b.length < 2 ^ 32 := by
  rw [h.length_eq]
  decide

/-- What has been received is read from it, -/
theorem ReceiverState.received_eq (h : ReceiverState b index bound lastNonce total) :
    received b = .ok total := by
  have hlen := h.length_eq
  unfold receiverBytes at hlen
  exact (wordAt_ok_iff h.lt (by decide) (by omega)).mpr h.total_eq.symm

/-- and so is the vault that it is bound to. -/
theorem ReceiverState.vaultAddress_eq (h : ReceiverState b index bound lastNonce total) :
    vaultAddress b = .ok bound := by
  have hlen := h.length_eq
  unfold receiverBytes at hlen
  exact (addressAt_ok_iff h.lt (by omega)).mpr h.bound_eq.symm

omit [Target] in
/-- A patch outside the fields leaves them. -/
theorem ReceiverState.patched (h : ReceiverState b index bound lastNonce total) {o : ℕ} {u : Bytes}
    (hfits : o + u.length ≤ receiverBytes)
    (hout : o + u.length ≤ 96 ∨ 161 ≤ o ∧ o + u.length ≤ 168 ∨ 192 ≤ o) :
    ReceiverState (patch b o u) index bound lastNonce total := by
  have hsame : SameOutside o (o + u.length) b (patch b o u) :=
    sameOutside_patch (by rw [h.length_eq]; exact hfits)
  exact ⟨hsame.length_eq.trans h.length_eq,
    (hsame.extract_eq (by omega)).trans h.index_eq, (hsame.extract_eq (by omega)).trans h.bound_eq,
    (hsame.extract_eq (by omega)).trans h.lastNonce_eq,
    (hsame.extract_eq (by omega)).trans h.total_eq⟩

omit [Target] in
/-- Another last nonce. -/
theorem ReceiverState.withNonce (h : ReceiverState b index bound lastNonce total) (nonce : U64) :
    ReceiverState (patch b 168 (toLe nonce)) index bound nonce total := by
  have hlen : b.length = 224 := h.length_eq
  have hword : (toLe nonce).length = 8 := length_toLe nonce
  have hsame : SameOutside 168 (168 + (toLe nonce).length) b (patch b 168 (toLe nonce)) :=
    sameOutside_patch (by omega)
  have hread : (patch b 168 (toLe nonce)).extract 168 (168 + (toLe nonce).length) = toLe nonce :=
    extract_patch (by omega)
  rw [hword] at hsame hread
  exact ⟨hsame.length_eq.trans h.length_eq, (hsame.extract_eq (by omega)).trans h.index_eq,
    (hsame.extract_eq (by omega)).trans h.bound_eq, hread,
    (hsame.extract_eq (by omega)).trans h.total_eq⟩

omit [Target] in
/-- An index. -/
theorem ReceiverState.withIndex (h : ReceiverState b index bound lastNonce total) (index' : U8) :
    ReceiverState (patch b 160 [index']) index' bound lastNonce total := by
  have hlen : b.length = 224 := h.length_eq
  have hone : [index'].length = 1 := rfl
  have hsame : SameOutside 160 (160 + [index'].length) b (patch b 160 [index']) :=
    sameOutside_patch (by omega)
  have hread : (patch b 160 [index']).extract 160 (160 + [index'].length) = [index'] :=
    extract_patch (by omega)
  rw [hone] at hsame hread
  exact ⟨hsame.length_eq.trans h.length_eq, hread, (hsame.extract_eq (by omega)).trans h.bound_eq,
    (hsame.extract_eq (by omega)).trans h.lastNonce_eq,
    (hsame.extract_eq (by omega)).trans h.total_eq⟩

omit [Target] in
/-- Another total. -/
theorem ReceiverState.withTotal (h : ReceiverState b index bound lastNonce total) (total' : U128) :
    ReceiverState (patch b 176 (toLe total')) index bound lastNonce total' := by
  have hlen : b.length = 224 := h.length_eq
  have hword : (toLe total').length = 16 := length_toLe total'
  have hsame : SameOutside 176 (176 + (toLe total').length) b (patch b 176 (toLe total')) :=
    sameOutside_patch (by omega)
  have hread : (patch b 176 (toLe total')).extract 176 (176 + (toLe total').length) =
      toLe total' := extract_patch (by omega)
  rw [hword] at hsame hread
  exact ⟨hsame.length_eq.trans h.length_eq, (hsame.extract_eq (by omega)).trans h.index_eq,
    (hsame.extract_eq (by omega)).trans h.bound_eq,
    (hsame.extract_eq (by omega)).trans h.lastNonce_eq, hread⟩

omit [Target] in
/-- Another vault. -/
theorem ReceiverState.withVault (h : ReceiverState b index bound lastNonce total)
    (vault : AccountAddress) :
    ReceiverState (putAddress b 96 vault) index vault lastNonce total := by
  have hlen : b.length = 224 := h.length_eq
  have haddress : vault.toBytes.length = 64 := vault.length_toBytes
  have hsame : SameOutside 96 (96 + vault.toBytes.length) b (putAddress b 96 vault) :=
    sameOutside_patch (by omega)
  have hread : (putAddress b 96 vault).extract 96 (96 + vault.toBytes.length) = vault.toBytes :=
    extract_patch (by omega)
  rw [haddress] at hsame hread
  exact ⟨hsame.length_eq.trans h.length_eq, (hsame.extract_eq (by omega)).trans h.index_eq, hread,
    (hsame.extract_eq (by omega)).trans h.lastNonce_eq,
    (hsame.extract_eq (by omega)).trans h.total_eq⟩

/-! ## Calls -/

omit [Target] in
/-- A patch behind or in front of the count leaves it. -/
theorem ReceiverState.extract_count_patch (h : ReceiverState b index bound lastNonce total) {o : ℕ}
    {u : Bytes} (hfits : o + u.length ≤ receiverBytes) (hout : o + u.length ≤ 192 ∨ 200 ≤ o) :
    (patch b o u).extract 192 200 = b.extract 192 200 := by
  have hsame : SameOutside o (o + u.length) b (patch b o u) :=
    sameOutside_patch (by rw [h.length_eq]; exact hfits)
  exact hsame.extract_eq (by omega)

/-- The receipt of a payment. -/
structure Receipt (source : AccountAddress) (message : InternalMessage) (index : U8)
    (bound : AccountAddress) (lastNonce nonce : U64) (total amount : U128) (out : MessageOutput) :
    Prop where
  source_eq : source = bound
  body_eq : message.body = paymentBody index nonce amount
  later : lastNonce < nonce
  amount_eq : amount = principal message.extra
  fits : total.toNat + amount.toNat < 2 ^ 128
  result_eq : out.callbackResultBody = message.body

/-- What a receipt does besides: it is counted, and reported with its body. -/
structure Reported (b : Bytes) (message : InternalMessage) (out : MessageOutput) : Prop where
  method_eq : message.methodId = Ids.receive
  counted : ∃ count count' : U64, b.extract 192 200 = toLe count ∧
    count'.toNat = count.toNat + 1 ∧ ∀ old, (out.nextState old).extract 192 200 = toLe count'
  reports : ∀ report ∈ out.outboundIntents,
    report.methodId = Ids.auditRecord ∧ report.body = message.body

/-- A call that is not counted, and not reported. -/
structure Unreported (b : Bytes) (out : MessageOutput) : Prop where
  count_eq : ∀ old, (out.nextState old).extract 192 200 = b.extract 192 200
  outboundIntents_eq : out.outboundIntents = []

/-- A receipt is counted, and reported. -/
theorem reported_of_receive (h : ReceiverState b index bound lastNonce total)
    {source : AccountAddress} {message : InternalMessage} {out : MessageOutput}
    (hok : receive source message b = .ok out) : Reported b message out := by
  have hlen : b.length = 224 := h.length_eq
  simp only [receive, bind_ok_iff, failIf_ok_iff, exists_const, pure_ok_iff, okOr_ok_iff] at hok
  obtain ⟨_, -, hguard, -, ⟨index', nonce, amount⟩, -, lastNonce, -, -, hok⟩ := hok
  obtain ⟨old, -, total', -, count, hcount, count', hcount', audit, -, fuel, -, rfl⟩ := hok
  push Not at hguard
  refine ⟨hguard.2.1, ⟨count, count', ?_, ?_, fun _ => ?_⟩, fun report hreport => ?_⟩
  · exact ((wordAt_ok_iff h.lt (by decide) (by omega)).mp hcount).symm
  · exact (wordCheckedAdd_eq_some.mp hcount').symm
  · have hword : (toLe count').length = 8 := length_toLe count'
    have hsize : receiverBytes = 224 := rfl
    have hnext := ((h.withNonce nonce).withTotal total').length_eq
    have hread : (patch (patch (patch b 168 (toLe nonce)) 176 (toLe total')) 192
        (toLe count')).extract 192 (192 + (toLe count').length) = toLe count' :=
      extract_patch (by omega)
    rw [hword] at hread
    exact hread
  · have hbody : report = auditReport audit fuel message.body := by
      dsimp only at hreport
      split_ifs at hreport
      · simpa using hreport
      · simpa using hreport
    rw [hbody]
    exact ⟨rfl, rfl⟩

/-- **A receipt** comes from the vault, and adds its amount to the total. -/
theorem receive_ok (h : ReceiverState b index bound lastNonce total) {source : AccountAddress}
    {message : InternalMessage} {out : MessageOutput} (hok : receive source message b = .ok out) :
    ∃ nonce amount, Receipt source message index bound lastNonce nonce total amount out ∧
      ∀ old, ReceiverState (out.nextState old) index bound nonce (total + amount) := by
  have hlen : b.length = 224 := h.length_eq
  have hlast : wordAt eArgs 64 b 168 = .ok lastNonce :=
    (wordAt_ok_iff h.lt (by decide) (by omega)).mpr h.lastNonce_eq.symm
  have hindex : [b.getD 160 0] = [index] := by rw [← h.index_eq, extract_one (by omega)]
  simp only [receive, bind_ok_iff, failIf_ok_iff, exists_const, h.vaultAddress_eq, h.received_eq,
    hlast, pure_ok_iff, okOr_ok_iff, Except.ok.injEq, exists_eq_left'] at hok
  obtain ⟨hsource, -, ⟨index', nonce, amount⟩, hpayment, hguard, total', htotal, hok⟩ := hok
  obtain ⟨count, -, count', -, audit, -, fuel, -, rfl⟩ := hok
  obtain ⟨byte, rfl, -, -, -, hbody⟩ := readPayment_ok_iff.mp hpayment
  dsimp only at hguard htotal
  push Not at hsource hguard
  obtain rfl : byte = index := by
    rw [List.cons.injEq] at hindex
    exact BitVec.eq_of_toNat_eq (hguard.1.trans (congrArg BitVec.toNat hindex.1))
  have hadd := wordCheckedAdd_eq_some.mp htotal
  have hfits : total.toNat + amount.toNat < 2 ^ 128 := by
    have := total'.isLt
    omega
  refine ⟨nonce, amount, ⟨hsource.1, hbody, BitVec.not_le.mp hguard.2.1, hguard.2.2.1, hfits,
    rfl⟩, fun old => ?_⟩
  obtain rfl : total' = total + amount :=
    BitVec.eq_of_toNat_eq (hadd.symm.trans (BitVec.toNat_add_of_lt hfits).symm)
  exact ((h.withNonce nonce).withTotal _).patched (by simp [receiverBytes]) (.inr (.inr le_rfl))

/-- A binding names the vault. -/
theorem bindVault_ok (h : ReceiverState b index bound lastNonce total) {x : MessageInput}
    {next : Bytes} (hok : bindVault x b = .ok next) :
    ∃ vault : AccountAddress, x.message.body = vault.toBytes ∧
      ReceiverState next index vault lastNonce total ∧ next.extract 192 200 = b.extract 192 200 := by
  have hlen : b.length = 224 := h.length_eq
  simp only [bindVault, bind_ok_iff, failIf_ok_iff, pure_ok_iff, exists_const] at hok
  obtain ⟨hguard, vault, hvault, -, rfl⟩ := hok
  push Not at hguard
  have haddress : vault.toBytes.length = 64 := vault.length_toBytes
  have hsize : receiverBytes = 224 := rfl
  refine ⟨vault, ?_, h.withVault vault, h.extract_count_patch (by omega) (by omega)⟩
  have hbody := (addressAt_ok_iff (by omega) (by omega)).mp hvault
  rw [hbody, extract_zero_length hguard.1]

omit [Target] in
/-- A flag leaves the fields. -/
theorem setFlag_ok (h : ReceiverState b index bound lastNonce total) {x : MessageInput}
    {next : Bytes} (hok : setFlag x b = .ok next) :
    ReceiverState next index bound lastNonce total ∧ next.extract 192 200 = b.extract 192 200 := by
  simp only [setFlag, bind_ok_iff, failIf_ok_iff, pure_ok_iff, exists_const] at hok
  obtain ⟨-, rfl⟩ := hok
  have hone : [x.message.body.getD 0 0].length = 1 := rfl
  have hsize : receiverBytes = 224 := rfl
  by_cases hreject : x.message.methodId = Ids.reject
  · rw [if_pos hreject]
    exact ⟨h.patched (by omega) (by omega), h.extract_count_patch (by omega) (by omega)⟩
  · rw [if_neg hreject]
    exact ⟨h.patched (by omega) (by omega), h.extract_count_patch (by omega) (by omega)⟩

/-- **An accepted call** of a receiver is a receipt, or leaves the last nonce, the total and the count.
Only a binding changes the vault. -/
theorem processReceiver_cases {x : MessageInput}
    (h : ReceiverState x.state index bound lastNonce total) {out : MessageOutput}
    (hok : processReceiver x = .ok out) :
    (∃ source message, x.caller = .internal source ∧ x.message = .internal message ∧
      Reported x.state message out ∧
      ∃ nonce amount, Receipt source message index bound lastNonce nonce total amount out ∧
        ∀ old, ReceiverState (out.nextState old) index bound nonce (total + amount)) ∨
    x.message.methodId ≠ Ids.receive ∧ Unreported x.state out ∧
    ∃ bound', (bound' = bound ∨ x.message.methodId = Ids.bind ∧
        x.message.body = bound'.toBytes) ∧
      ∀ old, ReceiverState (out.nextState old) index bound' lastNonce total := by
  simp only [processReceiver, bind_ok_iff] at hok
  obtain ⟨-, -, owner, -, hok⟩ := hok
  split_ifs at hok with hstatus hmanage
  · unfold receiverStatus at hok
    split at hok
    next => exact absurd hok nofun
    next =>
      simp only [bind_ok_iff, pure_ok_iff] at hok
      obtain ⟨_, -, _, -, rfl⟩ := hok
      refine .inr ⟨fun hno => ?_, ⟨fun _ => rfl, rfl⟩, bound, .inl rfl, fun _ => h⟩
      rw [hno] at hstatus
      exact absurd hstatus (by decide)
  · simp only [manage, bind_ok_iff] at hok
    obtain ⟨_, -, _, -, hok⟩ := hok
    have hother : x.message.methodId ≠ Ids.receive := by
      intro hno
      rw [hno] at hmanage
      exact absurd hmanage (by decide)
    split_ifs at hok with hbind
    · obtain ⟨next, hnext, hout⟩ := bind_ok_iff.mp hok
      obtain ⟨vault, hbody, hstate, hcount⟩ := bindVault_ok h hnext
      rw [pure_ok_iff] at hout
      subst hout
      exact .inr ⟨hother, ⟨fun _ => hcount, rfl⟩, vault, .inr ⟨hbind, hbody⟩, fun _ => hstate⟩
    · obtain ⟨next, hnext, hout⟩ := bind_ok_iff.mp hok
      obtain ⟨hstate, hcount⟩ := setFlag_ok h hnext
      rw [pure_ok_iff] at hout
      subst hout
      exact .inr ⟨hother, ⟨fun _ => hcount, rfl⟩, bound, .inl rfl, fun _ => hstate⟩
  · split at hok
    next source message hcaller hmessage =>
      obtain ⟨nonce, amount, hreceipt, hstate⟩ := receive_ok h hok
      exact .inl ⟨source, message, hcaller, hmessage, reported_of_receive h hok, nonce, amount,
        hreceipt, hstate⟩
    next => exact absurd hok nofun

/-- **A delivered payment** is a receipt, if it is accepted. -/
theorem receipt_of_receive {x : MessageInput} (h : ReceiverState x.state index bound lastNonce total)
    {source : AccountAddress} {message : InternalMessage} (hcaller : x.caller = .internal source)
    (hmessage : x.message = .internal message) (hmethod : message.methodId = Ids.receive)
    {out : MessageOutput} (hok : processReceiver x = .ok out) :
    ∃ nonce amount, Receipt source message index bound lastNonce nonce total amount out ∧
      ∀ old, ReceiverState (out.nextState old) index bound nonce (total + amount) := by
  have hmethod' : x.message.methodId = Ids.receive := by
    rw [hmessage]
    exact hmethod
  simp only [processReceiver, bind_ok_iff, hmethod'] at hok
  obtain ⟨-, -, owner, -, hok⟩ := hok
  rw [if_neg (by decide), if_neg (by decide), hcaller, hmessage] at hok
  exact receive_ok h hok

/-- **A fresh receiver** is not bound, and has received nothing. -/
theorem initializeReceiver_ok {x : MessageInput} {out : MessageOutput}
    (hok : initializeReceiver x = .ok out) :
    ∃ deploy, x.deploy = .ok deploy ∧ ∀ old,
      ReceiverState (out.nextState old) (deploy.initData.getD 64 0) zeroAddress 0 0 ∧
        (out.nextState old).extract 192 200 = toLe (0 : U64) := by
  unfold initializeReceiver at hok
  split at hok
  next => exact absurd hok nofun
  next owner hcaller =>
    simp only [bind_ok_iff, mapError_ok_iff, pure_ok_iff] at hok
    obtain ⟨deploy, hdeploy, _, -, audit, -, fuel, -, _, -, rfl⟩ := hok
    refine ⟨deploy, hdeploy, fun _ => ?_⟩
    have hzeros : ReceiverState (zeros receiverBytes).val 0 zeroAddress 0 0 := by
      refine ⟨(zeros receiverBytes).property, ?_, ?_, ?_, ?_⟩ <;> decide
    have hsize : receiverBytes = 224 := rfl
    have howner : owner.val.length = 32 := owner.property
    have haudit : audit.toBytes.length = 64 := audit.length_toBytes
    have hfuel : (toLe fuel).length = 16 := length_toLe fuel
    have hfirst := hzeros.patched (o := 0) (u := owner.val) (by omega) (by omega)
    have hsecond := hfirst.patched (o := 32) (u := audit.toBytes) (by omega) (by omega)
    have hindexed := hsecond.withIndex (deploy.initData.getD 64 0)
    refine ⟨hindexed.patched (by omega) (by omega), ?_⟩
    have hone : [deploy.initData.getD 64 0].length = 1 := rfl
    have hlast := hindexed.extract_count_patch (o := 200) (u := toLe fuel) (by omega) (by omega)
    have hthird := hsecond.extract_count_patch (o := 160) (u := [deploy.initData.getD 64 0])
      (by omega) (by omega)
    refine hlast.trans (hthird.trans ?_)
    refine (hfirst.extract_count_patch (by omega) (by omega)).trans ?_
    exact (hzeros.extract_count_patch (by omega) (by omega)).trans (by decide)

end

/-! ## Deployment -/

/-- The init data of a receiver. -/
def receiverInitData (audit : AccountAddress) (index : U8) (fuel : U128) : Bytes :=
  [audit.toBytes, [index], (zeros 7).val, toLe fuel].flatten

/-- The deployment of a receiver at an address, signed by its owner. -/
def receiverDeployment (context : ExecutionContext) (owner : Bytes32)
    (address audit : AccountAddress) (index : U8) (fuel : U128) : MessageInput :=
  signedInput context (.ofEntries []) []
    { pubkey := owner
      destination := address
      deploys := true
      methodId := 0
      extra := .ofEntries []
      body := deployBody (receiverInitData audit index fuel) }

section

variable {context : ExecutionContext} {owner : Bytes32} {address audit : AccountAddress} {index : U8}
  {fuel : U128}

omit [Target] in
/-- The lengths of the fields of the init data, -/
theorem lengths_receiverInitData :
    [audit.toBytes, [index], (zeros 7).val, toLe fuel].map List.length = [64, 1, 7, 16] := by
  simp [(zeros 7).property]

omit [Target] in
/-- and that of them all. -/
theorem length_receiverInitData (audit : AccountAddress) (index : U8) (fuel : U128) :
    (receiverInitData audit index fuel).length = 88 :=
  length_flatten_of_lengths lengths_receiverInitData

omit [Target] in
/-- The fields of the init data stand at their places. -/
theorem splitParts_receiverInitData (audit : AccountAddress) (index : U8) (fuel : U128) :
    splitParts 0 [64, 1, 7, 16] (receiverInitData audit index fuel) =
      [audit.toBytes, [index], (zeros 7).val, toLe fuel] :=
  ((flatten_eq_iff lengths_receiverInitData (length_receiverInitData audit index fuel)).mp rfl).symm

omit [Target] in
/-- The index stands in the init data. -/
theorem getD_receiverInitData : (receiverInitData audit index fuel).getD 64 0 = index := by
  have hparts := splitParts_receiverInitData audit index fuel
  simp only [splitParts, List.cons.injEq] at hparts
  have hpindex := hparts.2.1
  rw [extract_one (d := 0) (by rw [length_receiverInitData]; decide), List.cons.injEq] at hpindex
  exact hpindex.1

/-- The init data of a deployment. -/
theorem deploy_receiverDeployment :
    (receiverDeployment context owner address audit index fuel).deploy =
      .ok ⟨zeros 32, zeros 32, [], [], receiverInitData audit index fuel⟩ := by
  refine deploy_signedInput rfl rfl ?_
  rw [length_receiverInitData]
  decide

/-- **Every account** of an application can be deployed as a receiver. -/
theorem starts_receiver (howner : owner ≠ zeros 32) (haddress : ¬ isZeroAddress address)
    (haudit : nonzeroAddress audit) (hne : audit ≠ address) (hdapp : audit.dappId = address.dappId)
    (hindex : index.toNat < maxMembers) (hfuel : fuel ≠ 0) :
    payoutReceiver.Starts (receiverDeployment context owner address audit index fuel)
      ((payoutReceiver.init
        (receiverDeployment context owner address audit index fuel)).nextState []) := by
  have hlen := length_receiverInitData audit index fuel
  have hparts := splitParts_receiverInitData audit index fuel
  simp only [splitParts, List.cons.injEq] at hparts
  obtain ⟨hpaudit, -, hpzeros, hpfuel, -⟩ := hparts
  have haudit' : addressAt eArgs (receiverInitData audit index fuel) 0 = .ok audit :=
    (addressAt_ok_iff (by omega) (by omega)).mpr hpaudit.symm
  have hfuel' : wordAt eArgs 128 (receiverInitData audit index fuel) 72 = .ok fuel :=
    (wordAt_ok_iff (by omega) (by decide) (by omega)).mpr hpfuel.symm
  have hwf : (receiverDeployment context owner address audit index fuel).WellFormed := by
    refine signedInput_wellFormed ⟨howner, haddress, CurrencyAmounts.wellFormed_ofEntries_nil, ?_⟩
      CurrencyAmounts.wellFormed_ofEntries_nil (Nat.two_pow_pos 32)
    show (deployBody (receiverInitData audit index fuel)).length < 2 ^ 31
    rw [length_deployBody, length_receiverInitData]
    decide
  have hform : ¬ ((receiverInitData audit index fuel).length ≠ 88 ∨
      (receiverInitData audit index fuel).extract 65 72 ≠ (zeros 7).val ∨
      maxMembers ≤ ((receiverInitData audit index fuel).getD 64 0).toNat ∨
      (receiverDeployment context owner address audit index fuel).state ≠ [] ∨
      ¬ (receiverDeployment context owner address audit index fuel).message.extra.isEmpty) := by
    push Not
    exact ⟨hlen, hpzeros, by rw [getD_receiverInitData]; exact hindex, rfl, rfl⟩
  have hfields : ¬ (¬ nonzeroAddress audit ∨ audit = address ∨ audit.dappId ≠ address.dappId ∨
      fuel = 0) := by
    push Not
    exact ⟨haudit, hne, hdapp, hfuel⟩
  have hok : ∃ out, initializeReceiver (receiverDeployment context owner address audit index fuel) =
      .ok out ∧ out.statusCode = 0 :=
    ⟨_, bind_ok_iff.mpr ⟨_, mapError_ok_iff.mpr deploy_receiverDeployment, bind_ok_iff.mpr
      ⟨(), failIf_ok_iff.mpr hform, bind_ok_iff.mpr ⟨audit, haudit', bind_ok_iff.mpr
        ⟨fuel, hfuel', bind_ok_iff.mpr ⟨(), failIf_ok_iff.mpr hfields, pure_ok_iff.mpr rfl⟩⟩⟩⟩⟩, rfl⟩
  obtain ⟨out, hout, hstatus⟩ := hok
  have hinit : payoutReceiver.init (receiverDeployment context owner address audit index fuel) =
      out := by
    show orFailure (initializeReceiver _) = out
    rw [hout]
    rfl
  exact ⟨hwf, by rw [hinit]; exact hstatus, rfl⟩

end

end

end AvmSdk.Hub
