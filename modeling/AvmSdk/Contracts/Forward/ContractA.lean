import AvmSdk.Contracts.Forward.Record

/-!
# Contract A, in two versions

The contracts `contract-a-v1` and `contract-a-v2`. A message from outside is forwarded with a fixed
value, the callback of the first forward is recorded, and an account of the first version can be
upgraded to the second.

* `Act`: what an accepted message does to the record, and what it sends.
* `Asks`: which message asks for which act, in which version.
* `Version.process_ok_iff`: a version accepts exactly the messages that ask for an act which the record
  allows, and answers with what the act makes of it.
-/

namespace AvmSdk.Forward

open Wire Sdk Contracts

/-- The versions of the contract. -/
inductive Version
  /-- `contract-a-v1` -/
  | v1
  /-- `contract-a-v2` -/
  | v2
deriving DecidableEq

/-- Source: `VERSION_MARKER` -/
def Version.marker : Version → U8
  | v1 => 1
  | v2 => 2

/-- Source: `BATCH_FUEL_FEE_SHELLS` -/
def batchFuelFeeShells : U128 := 2

/-- Source: `CODE_UPGRADE_HEADER_BYTES` -/
abbrev codeUpgradeHeaderBytes : ℕ := 72

/-- Source: `MIGRATION_PAYLOAD` -/
def migrationPayload : Bytes := asBytes "avm-a-v2-migrate-state!!"

/-- Source: `MIGRATION_MARKER` -/
def migrationMarker : Bytes := asBytes "V1MG"

/-- The magic of an upgrade message. -/
def upgradeMagic : Bytes := asBytes "ACUG"

/-- The magic of a deployment body. -/
def deployMagic : Bytes := asBytes "ACDP"

/-- Source: `FIXTURE_PACKAGE_OWNER_PUBKEY` -/
def fixturePackageOwnerPubkey : Bytes32 :=
  ⟨[0x81, 0x39, 0x77, 0x0e, 0xa8, 0x7d, 0x17, 0x5f, 0x56, 0xa3, 0x54, 0x66, 0xc3, 0x4c, 0x7e, 0xcc,
    0xcb, 0x8d, 0x8a, 0x91, 0xb4, 0xee, 0x37, 0xa2, 0x5d, 0xf6, 0x0f, 0x5b, 0x8f, 0xc9, 0xb3, 0x94],
    rfl⟩

/-- Source: `DEPLOY_METHOD_ID` -/
def deployMethodId : U64 := 0x1608e0e0319b4d0f

/-- Source: `ContractA::init` -/
def initialRecord : MessageOutput := MessageOutput.success (.fullReplace (zeros stateBytes).val)

/-- Source: `process_callback`, the same in both versions -/
def processCallback (input : MessageInput) : Except U32 MessageOutput :=
  match input.caller, input.message with
  | .internal _, .internal message => do
      let callback ← okOr message.callback callbackError
      let previousForwardCount ← previousCount stateBytes stateError input.state
      let previousCallbackCount ← okOr ((getRange input.state 8 16).bind (tryIntoArray 8)) stateError
      failIf (previousForwardCount ≠ 1 ∨ ofLe 64 previousCallbackCount.val ≠ 0 ∨
        (input.state.drop 16).any (fun byte => decide (byte ≠ 0)) = true ∨
        (CanonicalMessage.internal message).hasCallbackRequest ∨ callback.statusCode ≠ 0 ∨
        callback.causeAddress ≠ input.destination ∨ message.body ≠ callbackBody ∨
        input.internalEventResults ≠ toLe (0 : U32)) callbackError
      let nextState := patch (zeros stateBytes).val 0 (toLe previousForwardCount)
      let nextState := patch nextState 8 (toLe (1 : U64))
      let nextState := patch nextState 16 (toLe callback.statusCode)
      let nextState := patch nextState 20 (toLe (BitVec.ofNat 32 callbackBody.length))
      let nextState := patch nextState 24 callbackBody
      let nextState := patch nextState 40 callback.causeMsgHash.val
      pure (MessageOutput.success (.fullReplace nextState))
  | _, _ => .error callbackError

/-- The state of an upgraded account. Source: `process_code_upgrade`, `migrated_state` -/
def migrate (state : Bytes) : Bytes :=
  let migratedState := patch state 16 migrationMarker
  let migratedState := patch migratedState 20 (toLe (BitVec.ofNat 32 migrationPayload.length))
  let migratedState := patch migratedState 24 migrationPayload
  patch migratedState 48
    (List.zipWith (· ^^^ ·) (migratedState.extract 48 72) migrationPayload)

namespace V1

/-- Source: `contract-a-v1`, `process_code_upgrade`; the key of the package owner is set by the
build -/
def processCodeUpgrade (packageOwnerPubkey : Bytes32) (input : MessageInput) :
    Except U32 MessageOutput :=
  match input.caller with
  | .internal _ => .error upgradeError
  | .external packageOwner => do
      failIf (packageOwner ≠ packageOwnerPubkey ∨ input.state.length ≠ stateBytes ∨
        input.message.body.length ≠ codeUpgradeHeaderBytes + migrationPayload.length ∨
        getRange input.message.body 0 4 ≠ some upgradeMagic ∨
        getRange input.message.body 68 72 ≠
          some (toLe (BitVec.ofNat 32 migrationPayload.length)) ∨
        getRange input.message.body codeUpgradeHeaderBytes input.message.body.length ≠
          some migrationPayload) upgradeError
      let targetSelectedCodeId ←
        okOr ((getRange input.message.body 4 36).bind (tryIntoArray 32)) upgradeError
      let expectedCodeHash ←
        okOr ((getRange input.message.body 36 68).bind (tryIntoArray 32)) upgradeError
      failIf (targetSelectedCodeId = input.selectedCodeId ∨ targetSelectedCodeId = zeros 32 ∨
        expectedCodeHash = zeros 32) upgradeError
      pure { MessageOutput.success (.fullReplace (migrate input.state)) with
        codeUpgradeIntent := some ⟨targetSelectedCodeId, expectedCodeHash⟩ }

/-- Source: `contract-a-v1`, `process_version_probe` -/
def processVersionProbe (input : MessageInput) : Except U32 MessageOutput :=
  match input.caller with
  | .internal _ => .error probeError
  | .external _ => do
      failIf (input.message.body ≠ [] ∨ input.state.length ≠ stateBytes) probeError
      pure (MessageOutput.success (.fullReplace (input.state.set 16 Version.v1.marker)))

/-- Source: `contract-a-v1`, `process_message` behind the dispatch -/
def forward (input : MessageInput) : Except U32 MessageOutput :=
  match input.caller with
  | .internal _ => .error forwardError
  | .external _ => do
      let arguments ← okOr (getRange input.message.body 0 forwardArgsBytes) forwardError
      failIf (input.message.body.length ≠ forwardArgsBytes) forwardError
      let args ← forwardArgs arguments
      let previous ← previousCount stateBytes stateError input.state
      let nextCount ← okOr (wordCheckedAdd previous 1) stateError
      failIf ((input.state.drop 8).any (fun byte => decide (byte ≠ 0)) = true) stateError
      let nextState := patch (zeros stateBytes).val 0 (toLe nextCount)
      pure { MessageOutput.success (.fullReplace nextState) with
        outboundIntents := [forwarded args
          (batchFuelFeeShells * if args.callbackMethodId = 0 then 1 else 0) outboundBody]
        callbackIntents :=
          if args.callbackMethodId ≠ 0 then [⟨0, args.callbackMethodId⟩] else [] }

/-- Source: `contract-a-v1`, `process_message` -/
def process (packageOwnerPubkey : Bytes32) (input : MessageInput) : Except U32 MessageOutput :=
  if input.message.isCallback then processCallback input
  else if input.message.methodId = codeUpgradeMethodId then
    processCodeUpgrade packageOwnerPubkey input
  else if input.message.methodId = versionMethodId then processVersionProbe input
  else forward input

end V1

namespace V2

section

variable [Target]

/-- Source: `contract-a-v2`, `message_body` of `process_message` -/
def messageBody (input : MessageInput) : Except U32 Bytes :=
  let encodedBody := input.message.body
  if input.message.methodId = deployMethodId then do
    let encodedLen ← okOr (((getRange encodedBody 0 4).bind (tryIntoArray 4)).bind fun bytes =>
      usizeTryFrom (ofLe 32 bytes.val)) forwardError
    let body ← okOr (getRange encodedBody 4 encodedBody.length) forwardError
    failIf (body.length ≠ encodedLen) forwardError
    pure body
  else pure encodedBody

/-- Source: `contract-a-v2`, `process_code_upgrade` -/
def processCodeUpgrade (_input : MessageInput) : Except U32 MessageOutput := .error upgradeError

/-- Source: `contract-a-v2`, `process_version_probe` -/
def processVersionProbe (input : MessageInput) : Except U32 MessageOutput := do
  failIf (input.message.body ≠ [] ∨ input.state.length ≠ stateBytes) probeError
  let nextState ← match input.caller with
    | .external _ => pure (input.state.set 16 Version.v2.marker)
    | .internal _ => do
        failIf (¬ ∃ currency ∈ input.message.extra.items, currency.amount ≠ 0) probeError
        pure input.state
  pure (MessageOutput.success (.fullReplace nextState))

/-- Source: `contract-a-v2`, `process_message` behind the dispatch -/
def forward (input : MessageInput) : Except U32 MessageOutput :=
  match input.caller with
  | .internal _ => .error forwardError
  | .external _ => do
      let messageBody ← messageBody input
      let arguments ← okOr (getRange messageBody 0 forwardArgsBytes) forwardError
      let args ← forwardArgs arguments
      let deployBody := messageBody.drop forwardArgsBytes
      let isDeploy := deployMagic <+: deployBody
      failIf ((deployBody = [] ∧ args.callbackMethodId = 0) ∨
        (deployBody ≠ [] ∧ (¬ isDeploy ∨ args.callbackMethodId ≠ 0))) forwardError
      let previous ← previousCount stateBytes stateError input.state
      let nextCount ← okOr (wordCheckedAdd previous 1) stateError
      failIf (¬ isDeploy ∧ (input.state.drop 8).any (fun byte => decide (byte ≠ 0)) = true)
        stateError
      let nextState := patch (if isDeploy then input.state else (zeros stateBytes).val) 0
        (toLe nextCount)
      pure { MessageOutput.success (.fullReplace nextState) with
        outboundIntents := [forwarded args
          (if args.destination.dappId ≠ input.destination.dappId then 1 else 0)
          (if isDeploy then deployBody else outboundBody)]
        callbackIntents := if isDeploy then [] else [⟨0, args.callbackMethodId⟩] }

/-- Source: `contract-a-v2`, `process_message` -/
def process (input : MessageInput) : Except U32 MessageOutput :=
  if input.message.isCallback then processCallback input
  else if input.message.methodId = codeUpgradeMethodId then processCodeUpgrade input
  else if input.message.methodId = versionMethodId then processVersionProbe input
  else forward input

end

end V2

section

variable [Target]

/-- The handler of a version. -/
def Version.process (packageOwnerPubkey : Bytes32) : Version → MessageInput → Except U32 MessageOutput
  | v1 => V1.process packageOwnerPubkey
  | v2 => V2.process

/-- Source: `ContractA`, in both versions -/
def contractA (packageOwnerPubkey : Bytes32) (version : Version) : Contract where
  init _ := initialRecord
  processMessage input := orFailure (version.process packageOwnerPubkey input)

end

/-! ## Acts -/

/-- The tail of an upgraded account. -/
def migratedTail (tail : BytesN 56) : BytesN 56 :=
  ⟨migrationMarker ++ (toLe (BitVec.ofNat 32 migrationPayload.length) ++ (migrationPayload ++
    List.zipWith (· ^^^ ·) (tail.val.drop 32) migrationPayload)), by
    have hmarker : migrationMarker.length = 4 := rfl
    have hpayload : migrationPayload.length = 24 := rfl
    simp only [List.length_append, List.length_zipWith, List.length_drop, length_toLe, hmarker,
      hpayload, tail.property]
    rfl⟩

/-- What an accepted message does. -/
inductive Act
  /-- A message is forwarded. -/
  | forward (args : ForwardArgs)
  /-- A deployment is forwarded, with its body. -/
  | deploy (args : ForwardArgs) (body : Bytes)
  /-- The version leaves its mark. -/
  | probe (version : Version)
  /-- A probe that only brings an amount. -/
  | paid
  /-- The account is upgraded. -/
  | upgrade (intent : CodeUpgradeIntent)
  /-- The callback of the forward is recorded. -/
  | receipt (header : CallbackHeader)

namespace Act

/-- The record after the act. -/
def next : Act → Record → Record
  | forward _, r => { r with forwards := r.forwards + 1 }
  | deploy _ _, r => { r with forwards := r.forwards + 1 }
  | probe version, r => r.marked version.marker
  | paid, r => r
  | upgrade _, r => { r with tail := migratedTail r.tail }
  | receipt header, r => ⟨r.forwards, 1, Record.receiptTail header.statusCode header.causeMsgHash⟩

/-- What the record must be for the act. -/
def Allowed : Act → Record → Prop
  | forward _, r => r.forwards.toNat + 1 < 2 ^ 64 ∧ r.Blank
  | deploy _ _, r => r.forwards.toNat + 1 < 2 ^ 64
  | receipt _, r => r.forwards = 1 ∧ r.Blank
  | _, _ => True

/-- The fee of a forward. Source: `fuel_fee_shells` -/
def fee (x : MessageInput) (args : ForwardArgs) : Version → U128
  | .v1 => batchFuelFeeShells * if args.callbackMethodId = 0 then 1 else 0
  | .v2 => if args.destination.dappId ≠ x.destination.dappId then 1 else 0

/-- The messages that the act sends. -/
def sends (v : Version) (x : MessageInput) : Act → List OutboundIntent
  | forward args => [forwarded args (fee x args v) outboundBody]
  | deploy args body => [forwarded args (fee x args v) body]
  | _ => []

/-- The callbacks that the act asks for. -/
def requests : Act → List CallbackIntent
  | forward args => if args.callbackMethodId ≠ 0 then [⟨0, args.callbackMethodId⟩] else []
  | _ => []

/-- The upgrade that the act asks for. -/
def upgrades : Act → Option CodeUpgradeIntent
  | upgrade intent => some intent
  | _ => none

/-- The answer that reports the act. -/
def output (v : Version) (x : MessageInput) (r : Record) (act : Act) : MessageOutput :=
  { MessageOutput.success (.fullReplace (act.next r).encode) with
    outboundIntents := act.sends v x
    callbackIntents := act.requests
    codeUpgradeIntent := act.upgrades }

end Act

/-! ## Messages -/

/-- The callback that is recorded: of this account, without a request or an event, and with the
expected result. -/
structure Confirms (x : MessageInput) (message : InternalMessage) (h : CallbackHeader) : Prop where
  message_eq : x.message = .internal message
  caller : ∃ source, x.caller = .internal source
  header : message.callback = some h
  not_request : ¬ (CanonicalMessage.internal message).hasCallbackRequest
  status_eq : h.statusCode = 0
  cause_eq : h.causeAddress = x.destination
  body_eq : message.body = callbackBody
  results_eq : x.internalEventResults = toLe (0 : U32)

/-- The body of an upgrade. -/
def upgradeBody (intent : CodeUpgradeIntent) : Bytes :=
  [upgradeMagic, intent.targetSelectedCodeId.val, intent.expectedCodeHash.val,
    toLe (BitVec.ofNat 32 migrationPayload.length), migrationPayload].flatten

/-- The owner of the package asks for an upgrade to other code. -/
structure Upgrades (packageOwnerPubkey : Bytes32) (x : MessageInput) (intent : CodeUpgradeIntent) :
    Prop where
  caller : x.caller = .external packageOwnerPubkey
  body_eq : x.message.body = upgradeBody intent
  target_ne : intent.targetSelectedCodeId ≠ x.selectedCodeId
  target_ne_zero : intent.targetSelectedCodeId ≠ zeros 32
  hash_ne_zero : intent.expectedCodeHash ≠ zeros 32

/-- The message carries a body: in the second version a deployment announces its length. -/
def Carries (x : MessageInput) (body : Bytes) : Version → Prop
  | .v1 => x.message.body = body
  | .v2 => if x.message.methodId = deployMethodId then
      body.length < 2 ^ 32 ∧ x.message.body = toLe (BitVec.ofNat 32 body.length) ++ body
    else x.message.body = body

/-- The method is none of those with a handler of their own. -/
structure Other (x : MessageInput) : Prop where
  plain : ¬ x.message.isCallback
  not_upgrade : x.message.methodId ≠ codeUpgradeMethodId
  not_probe : x.message.methodId ≠ versionMethodId
  caller : ∃ key, x.caller = .external key

/-- **The messages** that ask for an act. -/
inductive Asks [Target] (packageOwnerPubkey : Bytes32) (x : MessageInput) : Version → Act → Prop
  /-- A callback. -/
  | receipt {v : Version} {message : InternalMessage} {h : CallbackHeader}
      (callback : x.message.isCallback) (confirms : Confirms x message h) :
      Asks packageOwnerPubkey x v (.receipt h)
  /-- An upgrade, which only the first version knows. -/
  | upgrade {intent : CodeUpgradeIntent} (plain : ¬ x.message.isCallback)
      (method_eq : x.message.methodId = codeUpgradeMethodId)
      (upgrades : Upgrades packageOwnerPubkey x intent) :
      Asks packageOwnerPubkey x .v1 (.upgrade intent)
  /-- A probe of the version. -/
  | probe {v : Version} {key : Bytes32} (plain : ¬ x.message.isCallback)
      (method_eq : x.message.methodId = versionMethodId) (caller : x.caller = .external key)
      (body_eq : x.message.body = []) : Asks packageOwnerPubkey x v (.probe v)
  /-- A probe of another account, which pays. -/
  | paid {source : AccountAddress} (plain : ¬ x.message.isCallback)
      (method_eq : x.message.methodId = versionMethodId) (caller : x.caller = .internal source)
      (body_eq : x.message.body = [])
      (pays : ∃ currency ∈ x.message.extra.items, currency.amount ≠ 0) :
      Asks packageOwnerPubkey x .v2 .paid
  /-- A forward. The second version insists on a callback. -/
  | forward {v : Version} {args : ForwardArgs} (other : Other x)
      (carries : Carries x args.toBytes v) (insists : v = .v2 → args.callbackMethodId ≠ 0) :
      Asks packageOwnerPubkey x v (.forward args)
  /-- A deployment, without a callback. -/
  | deploy {args : ForwardArgs} {body : Bytes} (other : Other x)
      (carries : Carries x (args.toBytes ++ body) .v2) (magic : deployMagic <+: body)
      (callback_eq : args.callbackMethodId = 0) : Asks packageOwnerPubkey x .v2 (.deploy args body)

/-! ## What the handlers accept -/

section

variable {x : MessageInput} {out : MessageOutput} {r : Record} {v : Version}

/-- **The migration** of a record. -/
theorem migrate_encode (r : Record) :
    migrate r.encode = { r with tail := migratedTail r.tail }.encode := by
  have hmarker : migrationMarker.length = 4 := rfl
  have hpayload : migrationPayload.length = 24 := rfl
  have hlen := r.length_encode
  have hcounters : (toLe r.forwards ++ toLe r.callbacks).length = 16 := by
    rw [List.length_append, length_toLe, length_toLe]
  have htake : r.encode.take 16 = toLe r.forwards ++ toLe r.callbacks := by
    rw [Record.encode, ← List.append_assoc, List.take_left' hcounters]
  have hdrop : r.encode.drop 48 = r.tail.val.drop 32 := by
    have htail : r.encode.drop 16 = r.tail.val := by
      rw [Record.encode, ← List.append_assoc, List.drop_left' hcounters]
    rw [← htail, List.drop_drop]
  -- the three writes are one, in front of what is combined with the payload
  have hfront : patch (patch (patch r.encode 16 migrationMarker) 20
      (toLe (BitVec.ofNat 32 migrationPayload.length))) 24 migrationPayload =
        toLe r.forwards ++ toLe r.callbacks ++ (migrationMarker ++
          toLe (BitVec.ofNat 32 migrationPayload.length) ++ migrationPayload) ++
            r.tail.val.drop 32 := by
    rw [patch_patch (i := 16), patch_patch (i := 16)]
    · have hend : 16 + (migrationMarker ++ toLe (BitVec.ofNat 32 migrationPayload.length) ++
          migrationPayload).length = 48 := by
        simp only [List.length_append, length_toLe, hmarker, hpayload]
      rw [patch, htake, hend, hdrop]
      simp only [List.append_assoc]
    all_goals simp [hmarker, hlen, stateBytes]
  have hlength : (toLe r.forwards ++ toLe r.callbacks ++ (migrationMarker ++
      toLe (BitVec.ofNat 32 migrationPayload.length) ++ migrationPayload)).length = 48 := by
    simp only [List.length_append, length_toLe, hmarker, hpayload]
  have hrest : (r.tail.val.drop 32).length = 24 := by
    rw [List.length_drop, r.tail.property]
  unfold migrate
  dsimp only
  rw [hfront]
  generalize hfirst : toLe r.forwards ++ toLe r.callbacks ++ (migrationMarker ++
    toLe (BitVec.ofNat 32 migrationPayload.length) ++ migrationPayload) = first at hlength ⊢
  have hextract : (first ++ r.tail.val.drop 32).extract 48 72 = r.tail.val.drop 32 := by
    rw [List.extract_eq_take_drop, List.drop_left' hlength, List.take_of_length_le (by omega)]
  have hlast : (first ++ r.tail.val.drop 32).drop (48 + (List.zipWith (· ^^^ ·)
      (r.tail.val.drop 32) migrationPayload).length) = [] := by
    rw [List.drop_eq_nil_iff, List.length_append, List.length_zipWith, hlength, hrest, hpayload]
    decide
  rw [hextract, patch, List.take_left' hlength, hlast, List.append_nil, ← hfirst]
  simp only [List.append_assoc]
  rfl

/-- **A callback** is recorded once, after one forward. -/
theorem processCallback_ok_iff (v : Version) : processCallback x = .ok out ↔
    ∃ r message h, x.state = r.encode ∧ Confirms x message h ∧ (Act.receipt h).Allowed r ∧
      out = (Act.receipt h).output v x r := by
  unfold processCallback
  constructor
  · intro hok
    split at hok
    next source message hcaller hmessage =>
      simp only [bind_ok_iff, okOr_ok_iff, Record.previousCount_ok_iff, failIf_ok_iff, exists_const,
        pure_ok_iff, not_or, not_not] at hok
      obtain ⟨h, hheader, n, ⟨r, hstate, rfl⟩, m, hm, ⟨hone, hzero, htail, hrequest, hstatus, hcause,
        hbody, hresults⟩, rfl⟩ := hok
      have hblank : r.Blank := by
        rw [hstate, Record.getRange_callbacks, Option.bind_some, tryIntoArray_eq_some] at hm
        rw [← hm, ofLe_toLe (by decide)] at hzero
        rw [hstate] at htail
        exact ⟨hzero, Record.tail_eq_iff.mp htail⟩
      refine ⟨r, message, h, hstate, ⟨hmessage, ⟨source, hcaller⟩, hheader, hrequest, hstatus, hcause,
        hbody, hresults⟩, ⟨hone, hblank⟩, ?_⟩
      rw [Record.receipt_written]
      rfl
    next => cases hok
  · rintro ⟨r, message, h, hstate, hconfirms, ⟨hone, hblank⟩, rfl⟩
    obtain ⟨source, hcaller⟩ := hconfirms.caller
    rw [hcaller, hconfirms.message_eq]
    simp only [bind_ok_iff, okOr_ok_iff, Record.previousCount_ok_iff, failIf_ok_iff, exists_const,
      pure_ok_iff, not_or, not_not]
    refine ⟨h, hconfirms.header, r.forwards, ⟨r, hstate, rfl⟩, ⟨toLe r.callbacks, length_toLe _⟩, ?_,
      ⟨hone, ?_, ?_, hconfirms.not_request, hconfirms.status_eq, hconfirms.cause_eq,
        hconfirms.body_eq, hconfirms.results_eq⟩, ?_⟩
    · rw [hstate, Record.getRange_callbacks, Option.bind_some, tryIntoArray_eq_some]
    · rw [ofLe_toLe (by decide), hblank.1]
    · rw [hstate]
      exact Record.tail_eq_iff.mpr hblank.2
    · rw [Record.receipt_written]
      rfl

/-- The lengths of the fields of the body of an upgrade, -/
theorem lengths_upgradeBody (intent : CodeUpgradeIntent) :
    [upgradeMagic, intent.targetSelectedCodeId.val, intent.expectedCodeHash.val,
      toLe (BitVec.ofNat 32 migrationPayload.length), migrationPayload].map List.length =
        [4, 32, 32, 4, 24] := by
  have hmagic : upgradeMagic.length = 4 := rfl
  have hpayload : migrationPayload.length = 24 := rfl
  simp [hmagic, hpayload, intent.targetSelectedCodeId.property, intent.expectedCodeHash.property]

/-- and that of the body. -/
theorem length_upgradeBody (intent : CodeUpgradeIntent) : (upgradeBody intent).length = 96 :=
  length_flatten_of_lengths (lengths_upgradeBody intent)

/-- **An upgrade** is asked for by the owner of the package, for other code. -/
theorem V1.processCodeUpgrade_ok_iff {owner : Bytes32} : V1.processCodeUpgrade owner x = .ok out ↔
    ∃ r intent, x.state = r.encode ∧ Upgrades owner x intent ∧
      out = (Act.upgrade intent).output .v1 x r := by
  have hpayload : migrationPayload.length = 24 := rfl
  have hbody (intent : CodeUpgradeIntent) (h : x.message.body.length = 96) :
      upgradeBody intent = x.message.body ↔
        upgradeMagic = x.message.body.extract 0 4 ∧
        intent.targetSelectedCodeId.val = x.message.body.extract 4 36 ∧
        intent.expectedCodeHash.val = x.message.body.extract 36 68 ∧
        toLe (BitVec.ofNat 32 migrationPayload.length) = x.message.body.extract 68 72 ∧
        migrationPayload = x.message.body.extract 72 96 := by
    rw [upgradeBody, flatten_eq_iff (lengths_upgradeBody intent) h]
    simp only [splitParts, List.cons.injEq, and_true]
  have hget (p q : ℕ) (hpq : p ≤ q) (hq : q ≤ x.message.body.length) (u : Bytes) :
      getRange x.message.body p q = some u ↔ u = x.message.body.extract p q := by
    rw [getRange_eq_some]
    exact ⟨fun h => h.2.symm, fun h => ⟨⟨hpq, hq⟩, h.symm⟩⟩
  have harray (p q : ℕ) (hpq : p ≤ q) (hq : q ≤ x.message.body.length) (u : Bytes32) :
      (getRange x.message.body p q).bind (tryIntoArray 32) = some u ↔
        u.val = x.message.body.extract p q := by
    rw [Option.bind_eq_some_iff]
    simp only [hget p q hpq hq, tryIntoArray_eq_some]
    constructor
    · rintro ⟨_, ha, hu⟩
      exact hu.symm.trans ha
    · exact fun hu => ⟨_, rfl, hu.symm⟩
  unfold V1.processCodeUpgrade
  constructor
  · intro hok
    split at hok
    next => cases hok
    next packageOwner hcaller =>
      simp only [bind_ok_iff, okOr_ok_iff, failIf_ok_iff, exists_const, pure_ok_iff, not_or,
        not_not] at hok
      obtain ⟨⟨rfl, hstate, hlength, hmagic, hcount, hlast⟩, target, htarget, hash, hhash,
        ⟨hne, hzero, hzero'⟩, rfl⟩ := hok
      have hlength : x.message.body.length = 96 := hlength
      obtain ⟨r, hr⟩ := Record.exists_encode hstate
      rw [harray _ _ (by decide) (by omega)] at htarget hhash
      rw [hget _ _ (by decide) (by omega)] at hmagic hcount
      rw [hlength, hget _ _ (by decide) (by omega)] at hlast
      refine ⟨r, ⟨target, hash⟩, hr.symm, ⟨hcaller, ?_, hne, hzero, hzero'⟩, ?_⟩
      · exact ((hbody _ hlength).mpr ⟨hmagic, htarget, hhash, hcount, hlast⟩).symm
      · rw [← hr, migrate_encode]
        rfl
  · rintro ⟨r, intent, hstate, hup, rfl⟩
    have hlength : x.message.body.length = 96 := by rw [hup.body_eq, length_upgradeBody]
    obtain ⟨hmagic, htarget, hhash, hcount, hlast⟩ := (hbody intent hlength).mp hup.body_eq.symm
    rw [hup.caller]
    simp only [bind_ok_iff, okOr_ok_iff, failIf_ok_iff, exists_const, pure_ok_iff, not_or, not_not]
    refine ⟨⟨trivial, by rw [hstate, r.length_encode], hlength, ?_, ?_, ?_⟩,
      intent.targetSelectedCodeId, ?_, intent.expectedCodeHash, ?_,
      ⟨hup.target_ne, hup.target_ne_zero, hup.hash_ne_zero⟩, ?_⟩
    · rwa [hget _ _ (by decide) (by omega)]
    · rwa [hget _ _ (by decide) (by omega)]
    · rwa [hlength, hget _ _ (by decide) (by omega)]
    · rwa [harray _ _ (by decide) (by omega)]
    · rwa [harray _ _ (by decide) (by omega)]
    · rw [hstate, migrate_encode]
      rfl

/-- A probe leaves the mark of the version. -/
theorem V1.processVersionProbe_ok_iff : V1.processVersionProbe x = .ok out ↔
    ∃ r key, x.state = r.encode ∧ x.caller = .external key ∧ x.message.body = [] ∧
      out = (Act.probe .v1).output .v1 x r := by
  unfold V1.processVersionProbe
  cases hcaller : x.caller with
  | «internal» source => simp
  | external key =>
      simp only [bind_ok_iff, failIf_ok_iff, exists_const, pure_ok_iff, not_or, not_not]
      constructor
      · rintro ⟨⟨hbody, hlen⟩, rfl⟩
        obtain ⟨r, hr⟩ := Record.exists_encode hlen
        refine ⟨r, key, hr.symm, rfl, hbody, ?_⟩
        rw [← hr, Record.set_encode]
        rfl
      · rintro ⟨r, key', hstate, -, hbody, rfl⟩
        refine ⟨⟨hbody, by rw [hstate, r.length_encode]⟩, ?_⟩
        rw [hstate, Record.set_encode]
        rfl

/-- The state of a forward from a blank record. -/
theorem patch_zeros {r : Record} (h : r.Blank) (n : U64) :
    patch (zeros stateBytes).val 0 (toLe n) = { r with forwards := n }.encode := by
  obtain ⟨hcallbacks, htail⟩ := h
  rw [← Record.encode_empty, Record.patch_forwards, hcallbacks, htail]
  rfl

/-- **A forward** of the first version. -/
theorem V1.forward_ok_iff : V1.forward x = .ok out ↔
    ∃ r args, x.state = r.encode ∧ (∃ key, x.caller = .external key) ∧
      x.message.body = args.toBytes ∧ (Act.forward args).Allowed r ∧
        out = (Act.forward args).output .v1 x r := by
  unfold V1.forward
  cases hcaller : x.caller with
  | «internal» source => simp
  | external key =>
      simp only [bind_ok_iff, okOr_ok_iff, failIf_ok_iff, exists_const, pure_ok_iff, not_not,
        Record.previousCount_ok_iff, nextCount_iff]
      constructor
      · rintro ⟨arguments, harguments, hlen, args, hargs, n, ⟨r, hstate, rfl⟩, m, ⟨hlt, rfl⟩, hblank,
          rfl⟩
        obtain ⟨-, rfl⟩ := getRange_eq_some.mp harguments
        rw [extract_zero_length hlen, forwardArgs_ok_iff hlen] at hargs
        rw [hstate, Record.blank_iff] at hblank
        refine ⟨r, args, hstate, ⟨key, rfl⟩, hargs.symm, ⟨hlt, hblank⟩, ?_⟩
        rw [patch_zeros hblank]
        rfl
      · rintro ⟨r, args, hstate, -, hbody, ⟨hlt, hblank⟩, rfl⟩
        have hlen : x.message.body.length = forwardArgsBytes := by rw [hbody, args.length_toBytes]
        refine ⟨x.message.body, ?_, hlen, args, ?_, _, ⟨r, hstate, rfl⟩, _, ⟨hlt, rfl⟩, ?_, ?_⟩
        · exact getRange_eq_some.mpr ⟨⟨by decide, by rw [hlen]⟩, extract_zero_length hlen⟩
        · exact (forwardArgs_ok_iff hlen).mpr hbody.symm
        · rw [hstate]
          exact Record.blank_iff.mpr hblank
        · rw [patch_zeros hblank]
          rfl

section

variable [Target]

/-- When the second version answers its probe, and with what. -/
theorem V2.processVersionProbe_ok_iff : V2.processVersionProbe x = .ok out ↔
    ∃ r, x.state = r.encode ∧ x.message.body = [] ∧
      ((∃ key, x.caller = .external key) ∧ out = (Act.probe .v2).output .v2 x r ∨
        (∃ source, x.caller = .internal source) ∧
          (∃ currency ∈ x.message.extra.items, currency.amount ≠ 0) ∧
            out = Act.paid.output .v2 x r) := by
  unfold V2.processVersionProbe
  cases hcaller : x.caller with
  | «internal» source =>
      simp only [bind_ok_iff, failIf_ok_iff, exists_const, pure_ok_iff, not_or, not_not]
      constructor
      · rintro ⟨⟨hbody, hlen⟩, hpays, state, rfl, rfl⟩
        obtain ⟨r, hr⟩ := Record.exists_encode hlen
        refine ⟨r, hr.symm, hbody, .inr ⟨⟨source, rfl⟩, hpays, ?_⟩⟩
        rw [← hr]
        rfl
      · rintro ⟨r, hstate, hbody, ⟨⟨key, hno⟩, -⟩ | ⟨-, hpays, rfl⟩⟩
        · cases hno
        · refine ⟨⟨hbody, by rw [hstate, r.length_encode]⟩, hpays, _, rfl, ?_⟩
          rw [hstate]
          rfl
  | external key =>
      simp only [bind_ok_iff, failIf_ok_iff, exists_const, pure_ok_iff, not_or, not_not]
      constructor
      · rintro ⟨⟨hbody, hlen⟩, state, rfl, rfl⟩
        obtain ⟨r, hr⟩ := Record.exists_encode hlen
        refine ⟨r, hr.symm, hbody, .inl ⟨⟨key, rfl⟩, ?_⟩⟩
        rw [← hr, Record.set_encode]
        rfl
      · rintro ⟨r, hstate, hbody, ⟨-, rfl⟩ | ⟨⟨source, hno⟩, -⟩⟩
        · refine ⟨⟨hbody, by rw [hstate, r.length_encode]⟩, _, rfl, ?_⟩
          rw [hstate, Record.set_encode]
          rfl
        · cases hno

/-- **The body** of a message to the second version. -/
theorem V2.messageBody_ok_iff {body : Bytes} :
    V2.messageBody x = .ok body ↔ Carries x body .v2 := by
  unfold V2.messageBody Carries
  dsimp only
  split_ifs with hmethod
  · simp only [bind_ok_iff, okOr_ok_iff, failIf_ok_iff, exists_const, pure_ok_iff, not_not,
      Option.bind_eq_some_iff, usizeTryFrom_eq, Option.some.injEq, tryIntoArray_eq_some]
    constructor
    · rintro ⟨n, ⟨a, ⟨u, hu, rfl⟩, rfl⟩, body', hbody', hlen, rfl⟩
      obtain ⟨⟨-, hfour⟩, hu⟩ := getRange_eq_some.mp hu
      obtain ⟨-, hrest⟩ := getRange_eq_some.mp hbody'
      have hsplit := extract_append_extract (p := 0) (q := 4) (Nat.zero_le 4) hfour x.message.body
      rw [hu, hrest, extract_zero_length rfl] at hsplit
      have hword : toLe (BitVec.ofNat 32 body'.length) = a.val := by
        rw [hlen, BitVec.ofNat_toNat, BitVec.setWidth_eq, toLe_ofLe (by rw [a.property])]
      refine ⟨?_, ?_⟩
      · rw [hlen]
        exact (ofLe 32 a.val).isLt
      · rw [hword]
        exact hsplit.symm
    · rintro ⟨hlt, hbody⟩
      have hfirst := getRange_append [] (toLe (BitVec.ofNat 32 body.length)) body
      rw [List.nil_append, List.length_nil, Nat.zero_add, length_toLe, ← hbody] at hfirst
      have hsecond := getRange_append (toLe (BitVec.ofNat 32 body.length)) body []
      rw [List.append_nil, ← hbody, length_toLe] at hsecond
      have hlength : x.message.body.length = 32 / 8 + body.length := by
        rw [hbody, List.length_append, length_toLe]
      refine ⟨body.length, ⟨⟨toLe (BitVec.ofNat 32 body.length), length_toLe _⟩, ⟨_, hfirst, rfl⟩, ?_⟩,
        body, ?_, rfl, rfl⟩
      · rw [ofLe_toLe (by decide), BitVec.toNat_ofNat, Nat.mod_eq_of_lt hlt]
      · rw [hlength]
        exact hsecond
  · exact pure_ok_iff

omit [Target] in
/-- The body of a forward starts with its arguments. -/
theorem exists_arguments_iff {body : Bytes} {args : ForwardArgs} :
    (∃ arguments, getRange body 0 forwardArgsBytes = some arguments ∧
      forwardArgs arguments = .ok args) ↔ ∃ rest, body = args.toBytes ++ rest := by
  constructor
  · rintro ⟨arguments, hrange, hargs⟩
    obtain ⟨⟨-, hle⟩, rfl⟩ := getRange_eq_some.mp hrange
    have hlen : (body.extract 0 forwardArgsBytes).length = forwardArgsBytes := by
      rw [length_extract_of_le hle, Nat.sub_zero]
    rw [forwardArgs_ok_iff hlen] at hargs
    refine ⟨body.drop forwardArgsBytes, ?_⟩
    rw [hargs, List.extract_eq_take_drop, List.drop_zero, Nat.sub_zero, List.take_append_drop]
  · rintro ⟨rest, rfl⟩
    have hrange := getRange_append [] args.toBytes rest
    rw [List.nil_append, List.length_nil, Nat.zero_add, args.length_toBytes] at hrange
    exact ⟨_, hrange, (forwardArgs_ok_iff args.length_toBytes).mpr rfl⟩

omit [Target] in
/-- What follows the arguments of a forward. -/
theorem drop_arguments (args : ForwardArgs) (rest : Bytes) :
    (args.toBytes ++ rest).drop forwardArgsBytes = rest :=
  List.drop_left' args.length_toBytes

omit [Target] in
/-- What the second version makes of the body: a plain forward, or a deployment. -/
theorem shape_iff {rest : Bytes} {callbackMethodId : U64} :
    ¬ (rest = [] ∧ callbackMethodId = 0 ∨
      rest ≠ [] ∧ (¬ deployMagic <+: rest ∨ callbackMethodId ≠ 0)) ↔
        rest = [] ∧ callbackMethodId ≠ 0 ∨ deployMagic <+: rest ∧ callbackMethodId = 0 := by
  have hmagic : ¬ deployMagic <+: [] := by decide
  by_cases hrest : rest = []
  · rw [hrest]
    simp [hmagic]
  · simp [hrest]

/-- **A forward** of the second version: a plain one with a callback, or a deployment. -/
theorem V2.forward_ok_iff : V2.forward x = .ok out ↔
    ∃ r args, x.state = r.encode ∧ (∃ key, x.caller = .external key) ∧
      (Carries x args.toBytes .v2 ∧ args.callbackMethodId ≠ 0 ∧ (Act.forward args).Allowed r ∧
          out = (Act.forward args).output .v2 x r ∨
        ∃ body, Carries x (args.toBytes ++ body) .v2 ∧ deployMagic <+: body ∧
          args.callbackMethodId = 0 ∧ (Act.deploy args body).Allowed r ∧
            out = (Act.deploy args body).output .v2 x r) := by
  unfold V2.forward
  cases hcaller : x.caller with
  | «internal» source => simp
  | external key =>
      simp only [bind_ok_iff, okOr_ok_iff, failIf_ok_iff, exists_const, pure_ok_iff,
        Record.previousCount_ok_iff, nextCount_iff, V2.messageBody_ok_iff, shape_iff]
      have hmagic : ¬ deployMagic <+: [] := by decide
      constructor
      · rintro ⟨body, hcarries, arguments, hrange, args, hargs, hshape, n, ⟨r, hstate, rfl⟩, m,
          ⟨hlt, rfl⟩, hblank, rfl⟩
        obtain ⟨rest, rfl⟩ := exists_arguments_iff.mp ⟨arguments, hrange, hargs⟩
        rw [drop_arguments] at hshape hblank ⊢
        refine ⟨r, args, hstate, ⟨key, rfl⟩, ?_⟩
        rcases hshape with ⟨rfl, hcallback⟩ | ⟨hdeploy, hcallback⟩
        · rw [List.append_nil] at hcarries
          rw [hstate] at hblank
          have hblank := Record.blank_iff.mp fun hno => hblank ⟨hmagic, hno⟩
          refine .inl ⟨hcarries, hcallback, ⟨hlt, hblank⟩, ?_⟩
          rw [if_neg hmagic, if_neg hmagic, if_neg hmagic, patch_zeros hblank]
          simp only [Act.output, Act.requests, if_pos hcallback]
          rfl
        · refine .inr ⟨rest, hcarries, hdeploy, hcallback, hlt, ?_⟩
          rw [if_pos hdeploy, if_pos hdeploy, if_pos hdeploy, hstate, Record.patch_forwards]
          rfl
      · rintro ⟨r, args, hstate, -, ⟨hcarries, hcallback, ⟨hlt, hblank⟩, rfl⟩ |
          ⟨body, hcarries, hdeploy, hcallback, hlt, rfl⟩⟩
        · obtain ⟨arguments, hrange, hargs⟩ :=
            exists_arguments_iff.mpr ⟨[], (List.append_nil args.toBytes).symm⟩
          have hdrop : args.toBytes.drop forwardArgsBytes = [] := by
            rw [List.drop_eq_nil_iff, args.length_toBytes]
          refine ⟨_, hcarries, arguments, hrange, args, hargs, ?_, _, ⟨r, hstate, rfl⟩, _,
            ⟨hlt, rfl⟩, ?_, ?_⟩
          · exact .inl ⟨hdrop, hcallback⟩
          · rw [hstate]
            exact fun hno => Record.blank_iff.mpr hblank hno.2
          · rw [hdrop, if_neg hmagic, if_neg hmagic, if_neg hmagic, patch_zeros hblank]
            simp only [Act.output, Act.requests, if_pos hcallback]
            rfl
        · obtain ⟨arguments, hrange, hargs⟩ := exists_arguments_iff.mpr ⟨body, rfl⟩
          refine ⟨_, hcarries, arguments, hrange, args, hargs, ?_, _, ⟨r, hstate, rfl⟩, _,
            ⟨hlt, rfl⟩, ?_, ?_⟩
          · rw [drop_arguments]
            exact .inr ⟨hdeploy, hcallback⟩
          · rw [drop_arguments]
            exact fun hno => hno.1 hdeploy
          · rw [drop_arguments, if_pos hdeploy, if_pos hdeploy, if_pos hdeploy, hstate,
              Record.patch_forwards]
            rfl

/-- Callbacks and only callbacks are recorded. -/
theorem asks_callback_iff {owner : Bytes32} {act : Act} (hcallback : x.message.isCallback) :
    Asks owner x v act ↔ ∃ message h, act = .receipt h ∧ Confirms x message h := by
  constructor
  · intro hasks
    cases hasks with
    | receipt _ hconfirms => exact ⟨_, _, rfl, hconfirms⟩
    | upgrade hplain => exact absurd hcallback hplain
    | probe hplain => exact absurd hcallback hplain
    | paid hplain => exact absurd hcallback hplain
    | forward hother => exact absurd hcallback hother.plain
    | deploy hother => exact absurd hcallback hother.plain
  · rintro ⟨message, h, rfl, hconfirms⟩
    exact .receipt hcallback hconfirms

/-- The method of an upgrade asks for nothing else. -/
theorem asks_upgrade_iff {owner : Bytes32} {act : Act} (hplain : ¬ x.message.isCallback)
    (hmethod : x.message.methodId = codeUpgradeMethodId) :
    Asks owner x v act ↔ v = .v1 ∧ ∃ intent, act = .upgrade intent ∧ Upgrades owner x intent := by
  have hne : codeUpgradeMethodId ≠ versionMethodId := by decide
  constructor
  · intro hasks
    cases hasks with
    | receipt hcallback => exact absurd hcallback hplain
    | upgrade _ _ hupgrades => exact ⟨rfl, _, rfl, hupgrades⟩
    | probe _ hprobe => exact absurd (hmethod.symm.trans hprobe) hne
    | paid _ hprobe => exact absurd (hmethod.symm.trans hprobe) hne
    | forward hother => exact absurd hmethod hother.not_upgrade
    | deploy hother => exact absurd hmethod hother.not_upgrade
  · rintro ⟨rfl, intent, rfl, hupgrades⟩
    exact .upgrade hplain hmethod hupgrades

/-- The method of a probe asks for nothing else. -/
theorem asks_probe_iff {owner : Bytes32} {act : Act} (hplain : ¬ x.message.isCallback)
    (hmethod : x.message.methodId = versionMethodId) :
    Asks owner x v act ↔ x.message.body = [] ∧
      ((∃ key, x.caller = .external key) ∧ act = .probe v ∨
        v = .v2 ∧ (∃ source, x.caller = .internal source) ∧
          (∃ currency ∈ x.message.extra.items, currency.amount ≠ 0) ∧ act = .paid) := by
  have hne : versionMethodId ≠ codeUpgradeMethodId := by decide
  constructor
  · intro hasks
    cases hasks with
    | receipt hcallback => exact absurd hcallback hplain
    | upgrade _ hupgrade => exact absurd (hmethod.symm.trans hupgrade) hne
    | probe _ _ hcaller hbody => exact ⟨hbody, .inl ⟨⟨_, hcaller⟩, rfl⟩⟩
    | paid _ _ hcaller hbody hpays => exact ⟨hbody, .inr ⟨rfl, ⟨_, hcaller⟩, hpays, rfl⟩⟩
    | forward hother => exact absurd hmethod hother.not_probe
    | deploy hother => exact absurd hmethod hother.not_probe
  · rintro ⟨hbody, ⟨⟨key, hcaller⟩, rfl⟩ | ⟨rfl, ⟨source, hcaller⟩, hpays, rfl⟩⟩
    · exact .probe hplain hmethod hcaller hbody
    · exact .paid hplain hmethod hcaller hbody hpays

/-- Every other method asks for a forward. -/
theorem asks_other_iff {owner : Bytes32} {act : Act} (hplain : ¬ x.message.isCallback)
    (hupgrade : x.message.methodId ≠ codeUpgradeMethodId)
    (hprobe : x.message.methodId ≠ versionMethodId) :
    Asks owner x v act ↔ (∃ key, x.caller = .external key) ∧
      ((∃ args, act = .forward args ∧ Carries x args.toBytes v ∧
          (v = .v2 → args.callbackMethodId ≠ 0)) ∨
        v = .v2 ∧ ∃ args body, act = .deploy args body ∧ Carries x (args.toBytes ++ body) .v2 ∧
          deployMagic <+: body ∧ args.callbackMethodId = 0) := by
  constructor
  · intro hasks
    cases hasks with
    | receipt hcallback => exact absurd hcallback hplain
    | upgrade _ hmethod => exact absurd hmethod hupgrade
    | probe _ hmethod => exact absurd hmethod hprobe
    | paid _ hmethod => exact absurd hmethod hprobe
    | forward hother hcarries hinsists =>
        exact ⟨hother.caller, .inl ⟨_, rfl, hcarries, hinsists⟩⟩
    | deploy hother hcarries hmagic hcallback =>
        exact ⟨hother.caller, .inr ⟨rfl, _, _, rfl, hcarries, hmagic, hcallback⟩⟩
  · rintro ⟨hcaller, ⟨args, rfl, hcarries, hinsists⟩ |
      ⟨rfl, args, body, rfl, hcarries, hmagic, hcallback⟩⟩
    · exact .forward ⟨hplain, hupgrade, hprobe, hcaller⟩ hcarries hinsists
    · exact .deploy ⟨hplain, hupgrade, hprobe, hcaller⟩ hcarries hmagic hcallback

/-- **What a version accepts**: the messages that ask for an act which the record allows. -/
theorem Version.process_ok_iff {owner : Bytes32} : v.process owner x = .ok out ↔
    ∃ r act, x.state = r.encode ∧ Asks owner x v act ∧ act.Allowed r ∧ out = act.output v x r := by
  by_cases hcallback : x.message.isCallback
  · have hprocess : v.process owner x = processCallback x := by
      cases v
      · exact if_pos hcallback
      · exact if_pos hcallback
    rw [hprocess, processCallback_ok_iff v]
    simp only [asks_callback_iff hcallback]
    constructor
    · rintro ⟨r, message, h, hstate, hconfirms, hallowed, hout⟩
      exact ⟨r, _, hstate, ⟨message, h, rfl, hconfirms⟩, hallowed, hout⟩
    · rintro ⟨r, _, hstate, ⟨message, h, rfl, hconfirms⟩, hallowed, hout⟩
      exact ⟨r, message, h, hstate, hconfirms, hallowed, hout⟩
  by_cases hupgrade : x.message.methodId = codeUpgradeMethodId
  · simp only [asks_upgrade_iff hcallback hupgrade]
    cases v with
    | v1 =>
        simp only [Version.process, V1.process, if_neg hcallback, if_pos hupgrade,
          V1.processCodeUpgrade_ok_iff]
        constructor
        · rintro ⟨r, intent, hstate, hup, hout⟩
          exact ⟨r, _, hstate, ⟨trivial, intent, rfl, hup⟩, trivial, hout⟩
        · rintro ⟨r, _, hstate, ⟨-, intent, rfl, hup⟩, -, hout⟩
          exact ⟨r, intent, hstate, hup, hout⟩
    | v2 =>
        simp only [Version.process, V2.process, if_neg hcallback, if_pos hupgrade]
        refine iff_of_false nofun ?_
        rintro ⟨_, _, _, ⟨hno, -⟩, -⟩
        cases hno
  by_cases hprobe : x.message.methodId = versionMethodId
  · simp only [asks_probe_iff hcallback hprobe]
    cases v with
    | v1 =>
        simp only [Version.process, V1.process, if_neg hcallback, if_neg hupgrade, if_pos hprobe,
          V1.processVersionProbe_ok_iff]
        constructor
        · rintro ⟨r, key, hstate, hcaller, hbody, hout⟩
          exact ⟨r, _, hstate, ⟨hbody, .inl ⟨⟨key, hcaller⟩, rfl⟩⟩, trivial, hout⟩
        · rintro ⟨r, _, hstate, ⟨hbody, ⟨⟨key, hcaller⟩, rfl⟩ | ⟨hno, -⟩⟩, -, hout⟩
          · exact ⟨r, key, hstate, hcaller, hbody, hout⟩
          · cases hno
    | v2 =>
        simp only [Version.process, V2.process, if_neg hcallback, if_neg hupgrade, if_pos hprobe,
          V2.processVersionProbe_ok_iff]
        constructor
        · rintro ⟨r, hstate, hbody, ⟨hcaller, hout⟩ | ⟨hcaller, hpays, hout⟩⟩
          · exact ⟨r, _, hstate, ⟨hbody, .inl ⟨hcaller, rfl⟩⟩, trivial, hout⟩
          · exact ⟨r, _, hstate, ⟨hbody, .inr ⟨trivial, hcaller, hpays, rfl⟩⟩, trivial, hout⟩
        · rintro ⟨r, _, hstate, ⟨hbody, ⟨hcaller, rfl⟩ | ⟨-, hcaller, hpays, rfl⟩⟩, -, hout⟩
          · exact ⟨r, hstate, hbody, .inl ⟨hcaller, hout⟩⟩
          · exact ⟨r, hstate, hbody, .inr ⟨hcaller, hpays, hout⟩⟩
  simp only [asks_other_iff hcallback hupgrade hprobe]
  cases v with
  | v1 =>
      simp only [Version.process, V1.process, if_neg hcallback, if_neg hupgrade, if_neg hprobe,
        V1.forward_ok_iff]
      constructor
      · rintro ⟨r, args, hstate, hcaller, hbody, hallowed, hout⟩
        exact ⟨r, _, hstate, ⟨hcaller, .inl ⟨args, rfl, hbody, nofun⟩⟩, hallowed, hout⟩
      · rintro ⟨r, _, hstate, ⟨hcaller, ⟨args, rfl, hbody, -⟩ | ⟨hno, -⟩⟩, hallowed, hout⟩
        · exact ⟨r, args, hstate, hcaller, hbody, hallowed, hout⟩
        · cases hno
  | v2 =>
      simp only [Version.process, V2.process, if_neg hcallback, if_neg hupgrade, if_neg hprobe,
        V2.forward_ok_iff]
      constructor
      · rintro ⟨r, args, hstate, hcaller, ⟨hcarries, hne, hallowed, hout⟩ |
          ⟨body, hcarries, hmagic, hzero, hallowed, hout⟩⟩
        · exact ⟨r, _, hstate, ⟨hcaller, .inl ⟨args, rfl, hcarries, fun _ => hne⟩⟩, hallowed, hout⟩
        · exact ⟨r, _, hstate, ⟨hcaller, .inr ⟨trivial, args, body, rfl, hcarries, hmagic, hzero⟩⟩,
            hallowed, hout⟩
      · rintro ⟨r, _, hstate, ⟨hcaller, ⟨args, rfl, hcarries, hne⟩ |
          ⟨-, args, body, rfl, hcarries, hmagic, hzero⟩⟩, hallowed, hout⟩
        · exact ⟨r, args, hstate, hcaller, .inl ⟨hcarries, hne trivial, hallowed, hout⟩⟩
        · exact ⟨r, args, hstate, hcaller, .inr ⟨body, hcarries, hmagic, hzero, hallowed, hout⟩⟩

/-- The errors of the contract are error codes. -/
theorem Version.raises_process {owner : Bytes32} : Raises (v.process owner x) ErrorCode := by
  have hforward : ErrorCode forwardError := by decide
  have hstate : ErrorCode stateError := by decide
  have hcallback : ErrorCode callbackError := by decide
  have hprobe : ErrorCode probeError := by decide
  have hupgrade : ErrorCode upgradeError := by decide
  have hcount (b : Bytes) : Raises (previousCount stateBytes stateError b) ErrorCode :=
    (raises_okOr fun _ => hstate).bind fun _ _ => raises_pure _
  have hargs (b : Bytes) : Raises (forwardArgs b) ErrorCode :=
    (raises_okOr fun _ => hforward).bind fun _ _ => (raises_okOr fun _ => hforward).bind fun _ _ =>
      (raises_okOr fun _ => hforward).bind fun _ _ => (raises_okOr fun _ => hforward).bind
        fun _ _ => raises_pure _
  have hreceipt : Raises (processCallback x) ErrorCode := by
    unfold processCallback
    split
    · exact (raises_okOr fun _ => hcallback).bind fun _ _ => (hcount _).bind fun _ _ =>
        (raises_okOr fun _ => hstate).bind fun _ _ => (raises_failIf fun _ => hcallback).bind
          fun _ _ => raises_pure _
    · exact raises_error hcallback
  cases v with
  | v1 =>
      refine Raises.ite (fun _ => hreceipt) fun _ => Raises.ite (fun _ => ?_) fun _ =>
        Raises.ite (fun _ => ?_) fun _ => ?_
      · unfold V1.processCodeUpgrade
        split
        · exact raises_error hupgrade
        · exact (raises_failIf fun _ => hupgrade).bind fun _ _ => (raises_okOr fun _ => hupgrade).bind
            fun _ _ => (raises_okOr fun _ => hupgrade).bind fun _ _ =>
              (raises_failIf fun _ => hupgrade).bind fun _ _ => raises_pure _
      · unfold V1.processVersionProbe
        split
        · exact raises_error hprobe
        · exact (raises_failIf fun _ => hprobe).bind fun _ _ => raises_pure _
      · unfold V1.forward
        split
        · exact raises_error hforward
        · exact (raises_okOr fun _ => hforward).bind fun _ _ => (raises_failIf fun _ => hforward).bind
            fun _ _ => (hargs _).bind fun _ _ => (hcount _).bind fun _ _ =>
              (raises_okOr fun _ => hstate).bind fun _ _ => (raises_failIf fun _ => hstate).bind
                fun _ _ => raises_pure _
  | v2 =>
      have hbody : Raises (V2.messageBody x) ErrorCode := by
        unfold V2.messageBody
        exact Raises.ite (fun _ => (raises_okOr fun _ => hforward).bind fun _ _ =>
          (raises_okOr fun _ => hforward).bind fun _ _ => (raises_failIf fun _ => hforward).bind
            fun _ _ => raises_pure _) fun _ => raises_pure _
      refine Raises.ite (fun _ => hreceipt) fun _ => Raises.ite (fun _ => raises_error hupgrade)
        fun _ => Raises.ite (fun _ => ?_) fun _ => ?_
      · unfold V2.processVersionProbe
        refine (raises_failIf fun _ => hprobe).bind fun _ _ => ?_
        split
        · exact (raises_pure _).bind fun _ _ => raises_pure _
        · refine Raises.bind (raises_failIf fun _ => hprobe) fun _ _ => ?_
          exact (raises_pure _).bind fun _ _ => raises_pure _
      · unfold V2.forward
        split
        · exact raises_error hforward
        · exact hbody.bind fun _ _ => (raises_okOr fun _ => hforward).bind fun _ _ =>
            (hargs _).bind fun _ _ => (raises_failIf fun _ => hforward).bind fun _ _ =>
              (hcount _).bind fun _ _ => (raises_okOr fun _ => hstate).bind fun _ _ =>
                (raises_failIf fun _ => hstate).bind fun _ _ => raises_pure _

end

end

end AvmSdk.Forward
