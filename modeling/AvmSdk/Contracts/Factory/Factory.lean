import AvmSdk.Contracts.Common
import AvmSdk.Contracts.Factory.Blake3
import AvmSdk.Sdk.Input.Deploy

/-!
# A factory, its children and a relay

The contract `factory-child-provenance`. One package plays three roles, chosen by the constructor data:
a factory deploys children and takes their reports, a child reports to its factory, and a relay sends
what it is told to send.

* `Build`: what a build of the package decides. `Build.provenance`: the contract.
* `Build.childDeploy`: the address and the envelope of a child.
-/

namespace AvmSdk.Factory

open Wire Sdk Contracts

namespace Ids

/-- Source: `PING_METHOD_ID` -/
def ping : U64 := 0xca77f025f9343f7a
/-- Source: `SPAWN_METHOD_ID` -/
def spawn : U64 := 0x7d4688c37b017043
/-- Source: `ACCEPT_METHOD_ID` -/
def accept : U64 := 0x319b6391d476ed41
/-- Source: `REPORT_METHOD_ID` -/
def report : U64 := 0x2cbca2951661e9ac
/-- Source: `SEND_METHOD_ID` -/
def send : U64 := 0x61108ed4c55e3864
/-- Source: `FORGE_METHOD_ID` -/
def forge : U64 := 0x860e8543373c2373

end Ids

/-- Source: `INVALID_STATE` -/
def invalidState : U32 := 1600
/-- Source: `INVALID_INIT` -/
def invalidInit : U32 := 1601
/-- Source: `WRONG_ROLE` -/
def wrongRole : U32 := 1602
/-- Source: `INVALID_ARGS` -/
def invalidArgs : U32 := 1603
/-- Source: `INIT_CALLER_NOT_FACTORY` -/
def initCallerNotFactory : U32 := 1604
/-- Source: `NOT_A_CHILD` -/
def notAChild : U32 := 1605
/-- Source: `UNKNOWN_METHOD` -/
def unknownMethod : U32 := 1606

/-- Source: `ROLE_FACTORY` -/
def roleFactory : U8 := 1
/-- Source: `ROLE_CHILD` -/
def roleChild : U8 := 2
/-- Source: `ROLE_RELAY` -/
def roleRelay : U8 := 3

/-- Source: `INIT_BYTES` -/
abbrev initBytes : ℕ := 65
/-- Source: `SALT_BYTES` -/
abbrev saltBytes : ℕ := 8
/-- Source: `STATE_BYTES` -/
abbrev stateBytes : ℕ := 256
/-- Source: `HEADER_BYTES` -/
abbrev headerBytes : ℕ := 288

/-- The tag `b"AVM_ACCOUNT_ID"`. -/
def accountIdTag : Bytes :=
  [0x41, 0x56, 0x4d, 0x5f, 0x41, 0x43, 0x43, 0x4f, 0x55, 0x4e, 0x54, 0x5f, 0x49, 0x44]

/-- What a build of the package decides. -/
structure Build where
  /-- The hash function. Source: `blake3` -/
  hash : Bytes → Bytes32
  /-- Source: `PERMISSIVE_CHILD` -/
  permissiveChild : Bool

/-- The build without `PROVENANCE_PERMISSIVE_CHILD`, with any hash function. -/
def Build.strict (hash : Bytes → Bytes32) : Build := ⟨hash, false⟩

/-! ## Helpers -/

/-- Source: `unchanged` -/
def unchanged (input : MessageInput) : MessageOutput := MessageOutput.success (.fullReplace input.state)

/-- Source: `outbound` -/
def outbound (destination : AccountAddress) (methodId : U64) (body : Bytes) : OutboundIntent where
  inputIndex := 0
  destination := destination
  fuelFeeShells := 10000
  extra := []
  methodId := methodId
  body := body

/-- Source: `address_bytes` -/
def addressBytes (address : AccountAddress) : Bytes := address.dappId.val ++ address.accountId.val

/-- Source: `address_from` -/
def addressFrom (bytes : Bytes) : Option AccountAddress := do
  let dappId ← (getRange bytes 0 32).bind (tryIntoArray 32)
  let accountId ← (getRange bytes 32 64).bind (tryIntoArray 32)
  pure ⟨dappId, accountId⟩

/-- Source: `read_u32` -/
def readU32 (bytes : Bytes) (i : ℕ) : Option ℕ := do
  let word ← (getRange bytes i (i + 4)).bind (tryIntoArray 4)
  pure (ofLe 32 word.val).toNat

/-- Source: `read_u64` -/
def readU64 (bytes : Bytes) (i : ℕ) : Option U64 := do
  let word ← (getRange bytes i (i + 8)).bind (tryIntoArray 8)
  pure (ofLe 64 word.val)

/-- Source: `bytes_arg` -/
def bytesArg (body : Bytes) : Option Bytes := do
  let len ← readU32 body 0
  let args ← getRange body 4 body.length
  guard (args.length = len)
  pure args

/-- Source: `TEMPLATE`, the fields of the envelope that the account was created by -/
def template (state : Bytes) : Bytes := state.extract 16 112

/-- Source: `deploy_method_id` -/
def deployMethodId (input : MessageInput) : U64 := ofLe 64 (input.state.extract 8 16)

/-- Source: `child_init` -/
def childInit (factory : AccountAddress) : Bytes := roleChild :: addressBytes factory

namespace Build

variable (build : Build)

/-- What is hashed to the id of a child. Source: `child_account_id`, `preimage` -/
def preimage (packageId : Bytes) (factory : AccountAddress) (salt : Bytes) : Bytes :=
  accountIdTag ++ toLe (0 : U16) ++ packageId ++ factory.accountId.val ++
    toLe (BitVec.ofNat 16 salt.length) ++ salt ++ (build.hash (childInit factory)).val

/-- Source: `child_account_id` -/
def childAccountId (packageId : Bytes) (factory : AccountAddress) (salt : Bytes) : Bytes32 :=
  build.hash (build.preimage packageId factory salt)

/-- The header of the envelope. Source: `child_deploy`, `let mut envelope` -/
def childHeader (input : MessageInput) (factory : AccountAddress) : Bytes :=
  let envelope := (zeros headerBytes).val
  let envelope := patch envelope 0 acdpMagic
  let envelope := patch envelope 8 input.selectedCodeId.val
  let envelope := patch envelope 40 (template input.state)
  let envelope := patch envelope 136 factory.accountId.val
  let envelope := patch envelope 168 (build.hash (childInit factory)).val
  let envelope := patch envelope 266 (toLe (BitVec.ofNat 16 saltBytes))
  patch envelope 268 (toLe (BitVec.ofNat 32 initBytes))

/-- Source: `child_deploy` -/
def childDeploy (input : MessageInput) (factory : AccountAddress) (salt : BytesN saltBytes) :
    AccountAddress × Bytes :=
  (⟨factory.dappId, build.childAccountId ((template input.state).take 32) factory salt.val⟩,
    build.childHeader input factory ++ salt.val ++ childInit factory)

/-! ## Methods -/

/-- Source: `spawn` -/
def spawn (input : MessageInput) : Except U32 MessageOutput :=
  match input.caller with
  | .internal _ => .error invalidArgs
  | .external _ => do
      let salt ← okOr (tryIntoArray saltBytes input.message.body) invalidArgs
      let (child, envelope) := build.childDeploy input input.destination salt
      pure { MessageOutput.success (.fullReplace (patch input.state 180 (addressBytes child))) with
        outboundIntents := [outbound child (deployMethodId input) envelope] }

/-- Source: `accept` -/
def accept (input : MessageInput) : Except U32 MessageOutput :=
  match input.caller with
  | .external _ => .error notAChild
  | .internal sender => do
      let salt ← okOr (tryIntoArray saltBytes input.message.body) invalidArgs
      let factory := input.destination
      let expected := build.childAccountId ((template input.state).take 32) factory salt.val
      failIf (sender.dappId ≠ factory.dappId ∨ sender.accountId ≠ expected) notAChild
      let accepted : U32 := ofLe 32 (input.state.extract 112 116)
      let state := patch input.state 112 (toLe (accepted + 1))
      pure (MessageOutput.success (.fullReplace (patch state 116 (addressBytes sender))))

/-- Source: `report` -/
def report (input : MessageInput) : Except U32 MessageOutput := do
  let factory ← okOr (addressFrom (input.state.extract 112 176)) invalidState
  pure { unchanged input with
    outboundIntents := [outbound factory Ids.accept (input.state.extract 240 248)] }

/-- Source: `relay_send` -/
def relaySend (input : MessageInput) : Except U32 MessageOutput := do
  let args ← okOr (bytesArg input.message.body) invalidArgs
  let destination ← okOr ((getRange args 0 64).bind addressFrom) invalidArgs
  let methodId ← okOr (readU64 args 64) invalidArgs
  let body ← okOr (getRange args 72 args.length) invalidArgs
  pure { unchanged input with outboundIntents := [outbound destination methodId body] }

/-- Source: `relay_forge` -/
def relayForge (input : MessageInput) : Except U32 MessageOutput := do
  let args := input.message.body
  let factory ← okOr ((getRange args 0 64).bind addressFrom) invalidArgs
  let salt ← okOr ((getRange args 64 args.length).bind (tryIntoArray saltBytes)) invalidArgs
  let (child, envelope) := build.childDeploy input factory salt
  pure { unchanged input with
    outboundIntents := [outbound child (deployMethodId input) envelope] }

/-- The state of an account without the fields of its role. Source: `init`, `let mut state` -/
def freshState (input : MessageInput) (role : U8) (fields : Bytes) : Bytes :=
  let state := (zeros stateBytes).val
  let state := patch state 0 [role]
  let state := patch state 1 [if build.permissiveChild then 1 else 0]
  let state := patch state 8 (toLe input.message.methodId)
  patch state 16 fields

/-- The state of a child. Source: `init`, the arm of `ROLE_CHILD` -/
def childState (state : Bytes) (factory : Bytes) (deployer : AccountAddress) (salt : Bytes) : Bytes :=
  let state := patch state 112 factory
  let state := patch state 176 (addressBytes deployer)
  patch state 240 salt

/-- Source: `init`, the arm of `ROLE_CHILD` -/
def initChild (input : MessageInput) (deploy : DeployInput) (state : Bytes) :
    Except U32 MessageOutput :=
  match input.caller with
  | .external _ => .error initCallerNotFactory
  | .internal deployer => do
      failIf (¬ build.permissiveChild ∧ addressBytes deployer ≠ deploy.initData.drop 1)
        initCallerNotFactory
      let state := childState state (deploy.initData.drop 1) deployer deploy.salt
      pure (MessageOutput.success (.fullReplace state))

section

variable [Target]

/-- Source: `FactoryChildProvenance::init` -/
def initAccount (input : MessageInput) : Except U32 MessageOutput := do
  let deploy ← input.deploy.mapError fun _ => invalidInit
  let fields ← okOr (getRange input.message.body 40 136) invalidInit
  failIf (deploy.initData.length ≠ initBytes) invalidInit
  let role := deploy.initData.getD 0 0
  let state := build.freshState input role fields
  if (role = roleFactory ∨ role = roleRelay) ∧ deploy.initData.drop 1 = (zeros 64).val then
    pure (MessageOutput.success (.fullReplace state))
  else if role = roleChild ∧ deploy.salt.length = saltBytes then
    build.initChild input deploy state
  else .error invalidInit

end

/-- Source: `FactoryChildProvenance::process_message` -/
def process (input : MessageInput) : Except U32 MessageOutput := do
  failIf (input.state.length ≠ stateBytes) invalidState
  let role := input.state.getD 0 0
  let method := input.message.methodId
  if method = Ids.ping then pure (unchanged input)
  else if method = Ids.spawn ∧ role = roleFactory then build.spawn input
  else if method = Ids.accept ∧ role = roleFactory then build.accept input
  else if method = Ids.report ∧ role = roleChild then report input
  else if method = Ids.send ∧ role = roleRelay then relaySend input
  else if method = Ids.forge ∧ role = roleRelay then build.relayForge input
  else if method = Ids.spawn ∨ method = Ids.accept ∨ method = Ids.report ∨ method = Ids.send ∨
      method = Ids.forge then .error wrongRole
  else .error unknownMethod

/-- Source: `FactoryChildProvenance` -/
def provenance [Target] : Contract where
  init input := orFailure (build.initAccount input)
  processMessage input := orFailure (build.process input)

end Build

end AvmSdk.Factory
