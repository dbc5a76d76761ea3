import AvmSdk.Sdk.Input.Deploy
import AvmSdk.Wire.Layout

/-!
# Messages that a key signs

The owner of a key can send any contents: every destination, body and list of currencies stands in
some well-formed input, and every init data in the envelope of some deployment.

* `signedInput`, `signedInput_wellFormed`: a call that is signed by a key. `internalInput`: a message
  of an account. `callbackInput_wellFormed`: a callback.
* `deployBody`, `deployEnvelope_deployBody`: an envelope around init data, and what is read from it.
* `CurrencyAmounts.ofEntries`: the list with given entries.
-/

namespace AvmSdk.Sdk

open Wire Wire.Cursor

/-! ## Currencies -/

/-- The list with the given entries. -/
def CurrencyAmounts.ofEntries (entries : List CurrencyAmount) : CurrencyAmounts :=
  ⟨entries.flatMap CurrencyAmount.toBytes, BitVec.ofNat 16 entries.length⟩

section

variable [Target] {entries : List CurrencyAmount}

/-- The entries of the list are these. -/
theorem CurrencyAmounts.items_ofEntries (h : entries.length < 2 ^ 16) :
    (ofEntries entries).items = entries := by
  have hmax := Target.u32_le_usizeMax
  have hlen : (entries.flatMap CurrencyAmount.toBytes).length = entries.length * 20 :=
    CurrencyAmount.format.length_flatMap_enc entries
  exact items_of_entries (by omega) rfl

/-- A list with ascending ids is well formed. -/
theorem CurrencyAmounts.wellFormed_ofEntries (h : entries.length < 2 ^ 16)
    (hascending : (entries.map CurrencyAmount.currencyId).Pairwise (· < ·)) :
    (ofEntries entries).WellFormed := by
  have hlen : (entries.flatMap CurrencyAmount.toBytes).length = entries.length * 20 :=
    CurrencyAmount.format.length_flatMap_enc entries
  rw [wellFormed_iff, items_ofEntries h]
  refine ⟨?_, hascending⟩
  show (entries.flatMap CurrencyAmount.toBytes).length = (BitVec.ofNat 16 entries.length).toNat * 20
  rw [hlen, BitVec.toNat_ofNat, Nat.mod_eq_of_lt h]

/-- The list without entries. -/
theorem CurrencyAmounts.wellFormed_ofEntries_nil : (ofEntries []).WellFormed :=
  wellFormed_ofEntries (Nat.two_pow_pos 16) .nil

end

/-! ## Calls -/

/-- What a key signs. -/
structure SignedCall where
  /-- The key. -/
  pubkey : Bytes32
  /-- The account that is called. -/
  destination : AccountAddress
  /-- Whether the message deploys the account. -/
  deploys : Bool
  methodId : U64
  /-- The currencies that the message brings. -/
  extra : CurrencyAmounts
  body : Bytes

/-- The message of a call, without its bytes. -/
def SignedCall.unsent (call : SignedCall) : ExternalMessage where
  flags := externalFlagSigned ||| if call.deploys then externalFlagDeploy else 0
  methodId := call.methodId
  fuelFeeShells := 0
  nonce := 0
  createdAt := 0
  expireAt := 0
  destination := call.destination
  pubkey := call.pubkey
  extra := call.extra
  body := call.body
  signature := (zeros 64).val
  canonicalBytes := []

/-- The message of a call. -/
def SignedCall.message (call : SignedCall) : ExternalMessage :=
  { call.unsent with canonicalBytes := call.unsent.serialize }

/-- The input of a call, at an account with a balance and a state. -/
def signedInput (context : ExecutionContext) (balance : CurrencyAmounts) (state : Bytes)
    (call : SignedCall) : MessageInput where
  context := context
  caller := .external call.pubkey
  destination := call.destination
  selectedCodeId := zeros 32
  requiredStateOutputMode := .fullReplace
  extra := balance
  state := state
  message := .external call.message
  internalEventResults := []

/-- The state is the one that was given. -/
@[simp] theorem state_signedInput (context : ExecutionContext) (balance : CurrencyAmounts)
    (state : Bytes) (call : SignedCall) : (signedInput context balance state call).state = state :=
  rfl

section

variable [Target] {context : ExecutionContext} {balance : CurrencyAmounts} {state : Bytes}
  {call : SignedCall}

/-- What a call must satisfy. -/
structure SignedCall.Sendable (call : SignedCall) : Prop where
  pubkey_ne_zero : call.pubkey ≠ zeros 32
  destination_ne_zero : ¬ isZeroAddress call.destination
  extra_ok : call.extra.WellFormed
  body_length : call.body.length < 2 ^ 31

/-- **A signed call** makes a well-formed input. -/
theorem signedInput_wellFormed (h : call.Sendable) (hbalance : balance.WellFormed)
    (hstate : state.length < 2 ^ 32) : (signedInput context balance state call).WellFormed := by
  have hflags : externalFlagsOk call.message.flags := by
    show externalFlagsOk (externalFlagSigned ||| if call.deploys then externalFlagDeploy else 0)
    unfold externalFlagsOk
    cases call.deploys <;> decide
  have hmessage : call.message.WellFormed := by
    refine ⟨hflags, h.destination_ne_zero, h.pubkey_ne_zero, h.extra_ok, ?_, (zeros 64).property⟩
    exact h.body_length.trans (by decide)
  have hlength : call.message.serialize.length < 2 ^ 32 := by
    have hextra := (CurrencyAmounts.wellFormed_iff.mp h.extra_ok).1
    have hcount := call.extra.count.isLt
    have hbody := h.body_length
    have hbytes : call.message.serialize.length =
        192 + (call.extra.bytes.length + (call.body.length + 64)) := by
      rw [ExternalMessage.serialize, List.length_append, ExternalHeader.length_toBytes,
        List.length_append, List.length_append]
      rfl
    omega
  exact ⟨⟨hbalance, hstate, hlength, Nat.two_pow_pos 32⟩, hmessage, rfl, rfl, rfl⟩

/-- An input that is decoded from its own bytes is well formed, and these are a frame. -/
theorem exists_frame {x : MessageInput} (h : decodeMessageInput x.serialize = .ok x)
    (hlength : x.serialize.length ≤ usizeMax) :
    x.WellFormed ∧ ∃ frame : Slice, decodeMessageInput frame.bytes = .ok x :=
  ⟨((decodeMessageInput_ok_iff ⟨x.serialize, hlength⟩ x).mp h).2, ⟨x.serialize, hlength⟩, h⟩

end

/-! ## Messages of accounts -/

/-- A message of an account, with its bytes. -/
def InternalMessage.sent (unsent : InternalMessage) : InternalMessage :=
  { unsent with canonicalBytes := unsent.serialize }

/-- The input of a message of an account, at an account with a balance and a state. -/
def internalInput (context : ExecutionContext) (balance : CurrencyAmounts) (state : Bytes)
    (message : InternalMessage) : MessageInput where
  context := context
  caller := .internal message.source
  destination := message.destination
  selectedCodeId := zeros 32
  requiredStateOutputMode := .fullReplace
  extra := balance
  state := state
  message := .internal message
  internalEventResults := []

/-- The state is the one that was given. -/
@[simp] theorem state_internalInput (context : ExecutionContext) (balance : CurrencyAmounts)
    (state : Bytes) (message : InternalMessage) :
    (internalInput context balance state message).state = state := rfl

/-- What an account answers with a callback. -/
structure ReturnedCall where
  /-- The account that answers. -/
  source : AccountAddress
  /-- The account that is answered. -/
  destination : AccountAddress
  methodId : U64
  createdLt : U64
  /-- The hash of the message that is answered. -/
  causeMsgHash : Bytes32
  /-- How that message ended. -/
  statusCode : U32
  /-- The currencies that come back. -/
  extra : CurrencyAmounts
  body : Bytes

/-- The header of a callback. -/
def ReturnedCall.header (call : ReturnedCall) : CallbackHeader :=
  ⟨call.causeMsgHash, call.destination, call.statusCode⟩

/-- The message of a callback. -/
def ReturnedCall.message (call : ReturnedCall) : InternalMessage :=
  InternalMessage.sent
    { flags := internalFlagCallback
      methodId := call.methodId
      fuelFeeShells := 0
      createdLt := call.createdLt
      createdAt := 0
      source := call.source
      destination := call.destination
      callback := some call.header
      callbackHandlerMethodId := none
      eventReads := none
      extra := call.extra
      body := call.body
      canonicalBytes := [] }

section

variable [Target] {context : ExecutionContext} {balance : CurrencyAmounts} {state : Bytes}
  {call : ReturnedCall}

/-- What a callback must satisfy. -/
structure ReturnedCall.Sendable (call : ReturnedCall) : Prop where
  source_ne_zero : ¬ isZeroAddress call.source
  destination_ne_zero : ¬ isZeroAddress call.destination
  hash_ne_zero : call.causeMsgHash ≠ zeros 32
  method_ne_zero : call.methodId ≠ 0
  body_eq : call.statusCode ≠ 0 → call.body = []
  extra_ok : call.extra.WellFormed
  body_length : call.body.length < 2 ^ 31

omit [Target] in
/-- The message of a callback is one. -/
theorem ReturnedCall.isCallback (call : ReturnedCall) :
    (CanonicalMessage.internal call.message).isCallback := by
  show internalFlagCallback &&& internalFlagCallback ≠ 0
  decide

/-- The message of a callback is well formed. -/
theorem ReturnedCall.Sendable.message_wellFormed (h : call.Sendable) : call.message.WellFormed where
  flags_ok := by
    show internalFlagsOk internalFlagCallback
    unfold internalFlagsOk
    decide
  source_ne_zero := h.source_ne_zero
  destination_ne_zero := h.destination_ne_zero
  callback_isSome :=
    iff_of_true rfl (show internalFlagCallback &&& internalFlagCallback ≠ 0 by decide)
  handler_isSome := iff_of_false Bool.false_ne_true
    (show ¬ internalFlagCallback &&& internalFlagCallbackRequest ≠ 0 by decide)
  eventReads_isSome := iff_of_false Bool.false_ne_true
    (show ¬ internalFlagCallback &&& internalFlagEventReads ≠ 0 by decide)
  callback_ok := by
    rintro c ⟨⟩
    exact ⟨h.hash_ne_zero, rfl, fun hno => h.method_ne_zero hno.1, h.body_eq⟩
  handler_ne_zero := nofun
  eventReads_ok := nofun
  extra_ok := h.extra_ok
  body_length := h.body_length.trans (by decide)

/-- **A callback** makes a well-formed input. -/
theorem callbackInput_wellFormed (h : call.Sendable) (hbalance : balance.WellFormed)
    (hstate : state.length < 2 ^ 32) :
    (internalInput context balance state call.message).WellFormed := by
  have hlength : call.message.serialize.length < 2 ^ 32 := by
    have hextra := (CurrencyAmounts.wellFormed_iff.mp h.extra_ok).1
    have hcount := call.extra.count.isLt
    have hbody := h.body_length
    have hsections : call.message.sections.toBytes.length =
        100 + (call.extra.bytes.length + call.body.length) := by
      simp [InternalSections.toBytes, InternalMessage.sections, ReturnedCall.message,
        InternalMessage.sent, CallbackHeader.toBytes]
      omega
    rw [InternalMessage.serialize, List.length_append, InternalHeader.length_toBytes, hsections]
    omega
  exact ⟨⟨hbalance, hstate, hlength, Nat.two_pow_pos 32⟩, h.message_wellFormed, rfl, rfl, rfl⟩

end

/-! ## Deployments -/

/-- The header of an envelope with nothing but init data of the given length in it. -/
def deployHeader (initDataLen : U32) : Bytes :=
  acdpMagic ++ (toLe (0 : U16) ++ (toLe (0 : U16) ++ ((zeros 32).val ++ ((zeros 32).val ++
    ((zeros 64).val ++ ((zeros 32).val ++ ((zeros 32).val ++ ((zeros 32).val ++ ((zeros 32).val ++
    (toLe (0 : U16) ++ (toLe (0 : U16) ++ (toLe initDataLen ++ (toLe (0 : U32) ++
    (toLe (0 : U32) ++ (toLe (0 : U32) ++ (toLe (0 : U16) ++ toLe (0 : U16)))))))))))))))))

/-- The envelope around init data. -/
def deployBody (initData : Bytes) : Bytes :=
  deployHeader (BitVec.ofNat 32 initData.length) ++ initData

/-- The length of the fields in front of the init data, -/
theorem length_deployHeader (n : U32) : (deployHeader n).length = 288 := by
  simp [deployHeader, acdpMagic, (zeros 32).property, (zeros 64).property]

/-- and of the whole. -/
theorem length_deployBody (initData : Bytes) :
    (deployBody initData).length = 288 + initData.length := by
  rw [deployBody, List.length_append, length_deployHeader]

section

variable [Target]

/-- The fields of the header stand at their places. -/
theorem read_deployHeader (n : U32) (v : Bytes) :
    readFixedAt 4 (deployHeader n ++ v) 0 = .ok ⟨acdpMagic, rfl⟩ ∧
    readU16At (deployHeader n ++ v) 4 = .ok 0 ∧ readU16At (deployHeader n ++ v) 6 = .ok 0 ∧
    readFixedAt 32 (deployHeader n ++ v) 40 = .ok (zeros 32) ∧
    readFixedAt 32 (deployHeader n ++ v) 136 = .ok (zeros 32) ∧
    readFixedAt 32 (deployHeader n ++ v) 200 = .ok (zeros 32) ∧
    readFixedAt 32 (deployHeader n ++ v) 232 = .ok (zeros 32) ∧
    readU16At (deployHeader n ++ v) 264 = .ok 0 ∧ readU16At (deployHeader n ++ v) 266 = .ok 0 ∧
    readU32At (deployHeader n ++ v) 268 = .ok n ∧ readU32At (deployHeader n ++ v) 272 = .ok 0 ∧
    readU32At (deployHeader n ++ v) 276 = .ok 0 ∧ readU32At (deployHeader n ++ v) 280 = .ok 0 ∧
    readU16At (deployHeader n ++ v) 284 = .ok 0 ∧ readU16At (deployHeader n ++ v) 286 = .ok 0 := by
  have hmagic (w : Bytes) : readFixedAt 4 (acdpMagic ++ w) 0 = .ok ⟨acdpMagic, rfl⟩ :=
    readFixedAt_here (by decide) ⟨acdpMagic, rfl⟩ w
  have hlen : acdpMagic.length = 4 := rfl
  have hzeros (k : ℕ) : (zeros k).val.length = k := (zeros k).property
  simp [deployHeader, readWordAt_skip, readWordAt_here, readFixedAt_skip, readFixedAt_here, hmagic,
    hlen, hzeros]

/-- **The envelope around init data** is accepted, and the init data is read from it. -/
theorem deployEnvelope_deployBody {initData : Bytes} (h : initData.length < 2 ^ 31) :
    deployEnvelope (deployBody initData) = .ok ⟨zeros 32, zeros 32, [], [], initData⟩ := by
  have hmax : (deployBody initData).length ≤ usizeMax := by
    have := Target.u32_le_usizeMax
    rw [length_deployBody]
    omega
  have hcount : (BitVec.ofNat 32 initData.length).toNat = initData.length := by
    rw [BitVec.toNat_ofNat, Nat.mod_eq_of_lt (by omega)]
  unfold deployBody at hmax ⊢
  obtain ⟨hmagic, h4, h6, h40, h136, h200, h232, h264, h266, h268, h272, h276, h280, h284, h286⟩ :=
    read_deployHeader (BitVec.ofNat 32 initData.length) initData
  generalize hn : BitVec.ofNat 32 initData.length = n at *
  have hposition := withPosition_behind (v := initData) (length_deployHeader n)
  have htail := reads_run_finish ((reads_takeU16At (deployHeader n ++ initData) 264).bind
    fun uiName => (reads_takeU16At (deployHeader n ++ initData) 266).bind fun salt =>
    (reads_takeU32At (deployHeader n ++ initData) 268).bind fun data =>
    (reads_takeU32At (deployHeader n ++ initData) 272).bind fun _ =>
    (reads_takeU32At (deployHeader n ++ initData) 276).bind fun _ =>
    (reads_take 0).bind fun _ => (reads_takeU16At (deployHeader n ++ initData) 284).bind fun _ =>
    ((reads_take 64).optional ((0 : U16) &&& 0x20 ≠ 0)).bind fun _ =>
      Reads.pure (uiName, salt, data)) (sound_behind hmax) ([], [], initData)
  rw [rest_behind] at htail
  obtain ⟨r, hrun, hfin⟩ := htail.mpr ⟨[], [], initData, ⟨0, h264, rfl, rfl⟩,
    ⟨[], [], initData, ⟨0, h266, rfl, rfl⟩,
      ⟨initData, initData, [], ⟨n, h268, rfl, hcount.symm⟩,
        ⟨[], [], [], ⟨0, h272, rfl, rfl⟩, ⟨[], [], [], ⟨0, h276, rfl, rfl⟩,
          ⟨[], [], [], ⟨rfl, rfl⟩, ⟨[], [], [], ⟨0, h284, rfl, rfl⟩,
            ⟨none, [], [], ⟨by decide, rfl⟩, ⟨rfl, rfl⟩, rfl⟩, rfl⟩, rfl⟩, rfl⟩, rfl⟩,
        (List.append_nil _).symm⟩, rfl⟩, rfl⟩
  have htailrun : readDeployTail (deployHeader n ++ initData) 0 0
      ⟨deployHeader n ++ initData, (deployHeader n).length⟩ = .ok (([], [], initData), r) := hrun
  have hownerless : ¬ (((0 : U16) &&& 0x10 ≠ 0 ↔ zeros 32 = zeros 32) ∨
      (0 : U16) &&& 8 ≠ 0 ∧ (0 : U16) &&& 0x10 ≠ 0) := by decide
  have habi : checkAbiHash (deployHeader n ++ initData) 0 = .ok () := by
    rw [checkAbiHash, if_pos rfl, h232]
    rfl
  simp only [deployEnvelope, bind_ok_iff, failIf_ok_iff, exists_const, toUsize_ok_iff, pure_ok_iff]
  refine ⟨_, hposition, _, hmagic, fun hno => hno rfl, 0, h4, by decide, 0, h6, fun hno => hno rfl,
    0, h286, fun hno => hno rfl, zeros 32, h200, hownerless, 0, h280, 0, rfl, _, habi, _, htailrun,
    _, hfin, zeros 32, h40, zeros 32, h136, rfl⟩

/-- The deployment that a key signs. -/
theorem deploy_signedInput {context : ExecutionContext} {balance : CurrencyAmounts} {state : Bytes}
    {call : SignedCall} {initData : Bytes} (hdeploys : call.deploys = true)
    (hbody : call.body = deployBody initData) (h : initData.length < 2 ^ 31) :
    (signedInput context balance state call).deploy =
      .ok ⟨zeros 32, zeros 32, [], [], initData⟩ := by
  have hflag : (signedInput context balance state call).message.isDeploy := by
    show (externalFlagSigned ||| if call.deploys then externalFlagDeploy else 0) &&&
      externalFlagDeploy ≠ 0
    rw [hdeploys]
    decide
  have henvelope : deployEnvelope (signedInput context balance state call).message.body =
      .ok ⟨zeros 32, zeros 32, [], [], initData⟩ := by
    show deployEnvelope call.body = _
    rw [hbody, deployEnvelope_deployBody h]
  simp only [MessageInput.deploy, bind_ok_iff, failIf_ok_iff, exists_const]
  exact ⟨not_not.mpr hflag, henvelope⟩

end

end AvmSdk.Sdk
