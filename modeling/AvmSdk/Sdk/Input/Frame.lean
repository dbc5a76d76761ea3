import AvmSdk.Sdk.Input.Canonical

/-!
# Message frames

`decodeMessageInput`, the decoder of `ACMI` frames, against the frame format.

* `MessageFrame`: what a frame says, before anything is checked against the nested message;
  `reads_readMessageFrame`: the cursor part of the decoder accepts exactly the frames.
* `decodeMessageInput_ok_iff`: which frames carry which input.
* `messageInput_codec`: the sender of an accepted frame is the identity in the nested message, and
  the frame is determined by the input decoded from it.
-/

namespace AvmSdk.Sdk

open Wire Wire.Cursor

/-- Source: `input.rs` `MessageInput` -/
structure MessageInput where
  context : ExecutionContext
  caller : Caller
  destination : AccountAddress
  selectedCodeId : Bytes32
  requiredStateOutputMode : StateOutputMode
  extra : CurrencyAmounts
  state : Bytes
  message : CanonicalMessage
  internalEventResults : Bytes
deriving DecidableEq

/-! ## Decoding -/

/-- The tag `b"ACMI"`. -/
def acmiMagic : Bytes := [0x41, 0x43, 0x4d, 0x49]

/-- Source: `input.rs` `read_state_output_mode` -/
def readStateOutputMode (value : U8) : Except DecodeError StateOutputMode :=
  if value = 0 then .ok .fullReplace
  else if value = 1 then .ok .dataPatchList
  else .error .invalidValue

/-- Reserved bytes that passed the test are an array of zeros. -/
theorem eq_zeros_of_replicate {bytes : Bytes} {n : ℕ} (hlen : bytes.length = n)
    (h : bytes = List.replicate bytes.length 0) : bytes = (zeros n).val := by
  rw [h, hlen]
  rfl

/-- A byte is read as the mode that it stands for. -/
theorem readStateOutputMode_ok_iff {value : U8} {mode : StateOutputMode} :
    readStateOutputMode value = .ok mode ↔ value = mode.toU8 := by
  unfold readStateOutputMode
  by_cases h₀ : value = 0
  · subst h₀
    cases mode <;> decide
  by_cases h₁ : value = 1
  · subst h₁
    cases mode <;> decide
  · rw [if_neg h₀, if_neg h₁]
    cases mode with
    | fullReplace => exact ⟨nofun, fun h => absurd h h₀⟩
    | dataPatchList => exact ⟨nofun, fun h => absurd h h₁⟩

section

variable [Target]

/-- The first check of both frame decoders. -/
def readMagic (magic : Bytes) : ReadM Unit := do
  let bytes ← Reader.take 4
  failIf (bytes ≠ magic) DecodeError.badMagic

/-- Source: `input.rs` `read_context` -/
def readContext : ReadM ExecutionContext := do
  let blockLt ← Reader.u64
  let blockTime ← Reader.u32
  let blockSeqNo ← Reader.u32
  let blockRand ← Reader.fixed 32
  pure ⟨blockLt, blockTime, blockSeqNo, blockRand⟩

/-- An `AccountAddress` as both frame decoders read it. -/
def readAddress : ReadM AccountAddress := do
  let dappId ← Reader.fixed 32
  let accountId ← Reader.fixed 32
  pure ⟨dappId, accountId⟩

/-- The caller kind with its padding. -/
def readCallerKind : ReadM U8 := do
  let callerKind ← Reader.u8
  let reserved ← Reader.take 7
  requireZero reserved
  pure callerKind

/-- The required output mode with its padding. -/
def readRequiredMode : ReadM StateOutputMode := do
  let value ← Reader.u8
  let mode ← readStateOutputMode value
  let reserved ← Reader.take 7
  requireZero reserved
  pure mode

/-- What a message frame says, before the nested message is decoded. -/
structure MessageFrame where
  context : ExecutionContext
  callerKind : U8
  source : AccountAddress
  externalPubkey : Bytes32
  destination : AccountAddress
  selectedCodeId : Bytes32
  requiredStateOutputMode : StateOutputMode
  extra : CurrencyAmounts
  state : Bytes
  messageBytes : Bytes
  internalEventResults : Bytes

/-- The cursor part of `decode_message_input`. -/
def readMessageFrame : ReadM MessageFrame := do
  readMagic acmiMagic
  let context ← readContext
  let callerKind ← readCallerKind
  let source ← readAddress
  let externalPubkey ← Reader.fixed 32
  let destination ← readAddress
  let selectedCodeId ← Reader.fixed 32
  let requiredStateOutputMode ← readRequiredMode
  let extra ← readCurrencyAmounts
  let state ← Reader.lengthPrefixedU32
  let messageBytes ← Reader.lengthPrefixedU32
  let internalEventResults ← Reader.lengthPrefixedU32
  pure ⟨context, callerKind, source, externalPubkey, destination, selectedCodeId,
    requiredStateOutputMode, extra, state, messageBytes, internalEventResults⟩

/-- The sender of a frame, checked against its message.
Source: `input.rs` `decode_message_input`, `let caller` -/
def frameCaller (frame : MessageFrame) (message : CanonicalMessage) : Except DecodeError Caller :=
  if frame.callerKind = 0 then
    match message with
    | .internal m =>
        if frame.externalPubkey = zeros 32 ∧ frame.source.dappId = m.source.dappId ∧
            frame.source.accountId = m.source.accountId then
          .ok (.internal m.source)
        else .error .callerMismatch
    | .external _ => .error .callerMismatch
  else if frame.callerKind = 1 then
    match message with
    | .internal _ => .error .callerMismatch
    | .external m =>
        if frame.source.dappId = zeros 32 ∧ frame.source.accountId = zeros 32 ∧
            frame.externalPubkey = m.pubkey then
          .ok (.external frame.externalPubkey)
        else .error .callerMismatch
  else .error .unknownTag

/-- Source: `input.rs` `decode_message_input` -/
def decodeMessageInput (bytes : Bytes) : Except DecodeError MessageInput := do
  let (frame, reader) ← readMessageFrame (Reader.new bytes)
  reader.finish
  let message ← decodeCanonicalMessage frame.messageBytes
  failIf (message.destination ≠ frame.destination) .destinationMismatch
  let caller ← frameCaller frame message
  pure
    { context := frame.context
      caller := caller
      destination := frame.destination
      selectedCodeId := frame.selectedCodeId
      requiredStateOutputMode := frame.requiredStateOutputMode
      extra := frame.extra
      state := frame.state
      message := message
      internalEventResults := frame.internalEventResults }

/-! ## The languages of the frame readers -/

/-- The magic is read, -/
theorem reads_readMagic {magic : Bytes} (h : magic.length = 4) :
    Reads (readMagic magic) (fun _ w => w = magic) := by
  refine ((reads_take 4).bind fun bytes => Reads.failIf _ _).congr fun u w => ?_
  constructor
  · rintro ⟨bytes, u, v, ⟨rfl, -⟩, ⟨hmagic, rfl⟩, rfl⟩
    rw [not_not] at hmagic
    rw [List.append_nil, hmagic]
  · rintro rfl
    exact ⟨w, w, [], ⟨rfl, h⟩, ⟨not_not.mpr rfl, rfl⟩, (List.append_nil w).symm⟩

/-- the context, -/
theorem reads_readContext : Reads readContext (fun c w => w = c.toBytes) := by
  refine (reads_u64.bind fun blockLt => reads_u32.bind fun blockTime => reads_u32.bind
    fun blockSeqNo => (reads_fixed 32).bind fun blockRand => Reads.pure _).congr fun c w => ?_
  constructor
  · rintro ⟨blockLt, u, v, rfl, ⟨blockTime, u₁, v₁, rfl, ⟨blockSeqNo, u₂, v₂, rfl,
      ⟨blockRand, u₃, v₃, rfl, ⟨rfl, rfl⟩, rfl⟩, rfl⟩, rfl⟩, rfl⟩
    rw [List.append_nil]
    rfl
  · rintro rfl
    exact ⟨c.blockLt, _, _, rfl, ⟨c.blockTime, _, _, rfl, ⟨c.blockSeqNo, _, _, rfl,
      ⟨c.blockRand, _, [], rfl, ⟨rfl, rfl⟩, (List.append_nil _).symm⟩, rfl⟩, rfl⟩, rfl⟩

/-- an address, -/
theorem reads_readAddress : Reads readAddress (fun a w => w = a.toBytes) := by
  refine ((reads_fixed 32).bind fun dappId => (reads_fixed 32).bind fun accountId =>
    Reads.pure _).congr fun a w => ?_
  constructor
  · rintro ⟨dappId, u, v, rfl, ⟨accountId, u₁, v₁, rfl, ⟨rfl, rfl⟩, rfl⟩, rfl⟩
    rw [List.append_nil]
    rfl
  · rintro rfl
    exact ⟨a.dappId, _, _, rfl, ⟨a.accountId, _, [], rfl, ⟨rfl, rfl⟩, (List.append_nil _).symm⟩,
      rfl⟩

/-- the kind of the caller -/
theorem reads_readCallerKind :
    Reads readCallerKind (fun kind w => w = kind :: (zeros 7).val) := by
  refine (reads_u8.bind fun kind => (reads_take 7).bind fun reserved =>
    (reads_requireZero reserved).bind fun _ => Reads.pure _).congr fun kind w => ?_
  constructor
  · rintro ⟨kind, u, v, rfl, ⟨reserved, u₁, v₁, ⟨rfl, hlen⟩, ⟨_, u₂, v₂, ⟨hzero, rfl⟩,
      ⟨rfl, rfl⟩, rfl⟩, rfl⟩, rfl⟩
    rw [eq_zeros_of_replicate hlen hzero]
    rfl
  · rintro rfl
    exact ⟨kind, _, _, rfl, ⟨(zeros 7).val, _, [], ⟨rfl, rfl⟩, ⟨(), [], [], ⟨rfl, rfl⟩,
      ⟨rfl, rfl⟩, rfl⟩, (List.append_nil _).symm⟩, rfl⟩

/-- and the mode. -/
theorem reads_readRequiredMode :
    Reads readRequiredMode (fun mode w => w = mode.toU8 :: (zeros 7).val) := by
  refine (reads_u8.bind fun value => (Reads.lift _).bind fun mode => (reads_take 7).bind
    fun reserved => (reads_requireZero reserved).bind fun _ => Reads.pure _).congr
    fun mode w => ?_
  constructor
  · rintro ⟨value, u, v, rfl, ⟨mode, u₁, v₁, ⟨hmode, rfl⟩, ⟨reserved, u₂, v₂, ⟨rfl, hlen⟩,
      ⟨_, u₃, v₃, ⟨hzero, rfl⟩, ⟨rfl, rfl⟩, rfl⟩, rfl⟩, rfl⟩, rfl⟩
    rw [readStateOutputMode_ok_iff] at hmode
    rw [eq_zeros_of_replicate hlen hzero, hmode]
    rfl
  · rintro rfl
    exact ⟨mode.toU8, _, _, rfl, ⟨mode, [], _, ⟨readStateOutputMode_ok_iff.mpr rfl, rfl⟩,
      ⟨(zeros 7).val, _, [], ⟨rfl, rfl⟩, ⟨(), [], [], ⟨rfl, rfl⟩, ⟨rfl, rfl⟩, rfl⟩,
        (List.append_nil _).symm⟩, rfl⟩, rfl⟩

/-- The bytes of a message frame. -/
def MessageFrame.toBytes (f : MessageFrame) : Bytes :=
  acmiMagic ++ (f.context.toBytes ++ (f.callerKind :: (zeros 7).val ++ (f.source.toBytes ++
    (f.externalPubkey.val ++ (f.destination.toBytes ++ (f.selectedCodeId.val ++
      (f.requiredStateOutputMode.toU8 :: (zeros 7).val ++ (toLe f.extra.count ++ f.extra.bytes ++
        (lengthPrefixed 4 f.state ++ (lengthPrefixed 4 f.messageBytes ++
          lengthPrefixed 4 f.internalEventResults))))))))))

omit [Target] in
/-- The length of a frame, part by part. -/
theorem MessageFrame.length_toBytes (f : MessageFrame) :
    f.toBytes.length = 274 + f.extra.bytes.length + f.state.length + f.messageBytes.length +
      f.internalEventResults.length := by
  simp only [toBytes, acmiMagic, List.length_append, List.length_cons, List.length_nil, length_toLe,
    ExecutionContext.length_toBytes, AccountAddress.length_toBytes, length_bytesN,
    length_lengthPrefixed]
  omega

/-- The well-formed frames: an ascending currency list and sections whose length fits its prefix. -/
structure MessageFrame.WellFormed (f : MessageFrame) : Prop where
  extra_ok : f.extra.WellFormed
  state_length : f.state.length < 2 ^ 32
  messageBytes_length : f.messageBytes.length < 2 ^ 32
  internalEventResults_length : f.internalEventResults.length < 2 ^ 32

/-- The frame around a message is read. -/
theorem reads_readMessageFrame :
    Reads readMessageFrame (fun f w => f.WellFormed ∧ w = f.toBytes) := by
  refine ((reads_readMagic rfl).bind fun _ => reads_readContext.bind fun context =>
    reads_readCallerKind.bind fun kind => reads_readAddress.bind fun source =>
    (reads_fixed 32).bind fun pubkey => reads_readAddress.bind fun destination =>
    (reads_fixed 32).bind fun codeId => reads_readRequiredMode.bind fun mode =>
    reads_readCurrencyAmounts.bind fun extra => reads_lengthPrefixedU32.bind fun state =>
    reads_lengthPrefixedU32.bind fun message => reads_lengthPrefixedU32.bind fun results =>
      Reads.pure _).congr fun f w => ?_
  constructor
  · intro ⟨_, _, v₀, u₀, h, w₀⟩
    obtain ⟨context, _, v₁, u₁, h, w₁⟩ := h
    obtain ⟨kind, _, v₂, u₂, h, w₂⟩ := h
    obtain ⟨source, _, v₃, u₃, h, w₃⟩ := h
    obtain ⟨pubkey, _, v₄, u₄, h, w₄⟩ := h
    obtain ⟨destination, _, v₅, u₅, h, w₅⟩ := h
    obtain ⟨codeId, _, v₆, u₆, h, w₆⟩ := h
    obtain ⟨mode, _, v₇, u₇, h, w₇⟩ := h
    obtain ⟨extra, _, v₈, ⟨hextra, u₈⟩, h, w₈⟩ := h
    obtain ⟨state, _, v₉, ⟨hstate, u₉⟩, h, w₉⟩ := h
    obtain ⟨message, _, v₁₀, ⟨hmessage, u₁₀⟩, h, w₁₀⟩ := h
    obtain ⟨results, _, v₁₁, ⟨hresults, u₁₁⟩, ⟨rfl, u₁₂⟩, w₁₁⟩ := h
    refine ⟨⟨hextra, hstate, hmessage, hresults⟩, ?_⟩
    rw [w₀, w₁, w₂, w₃, w₄, w₅, w₆, w₇, w₈, w₉, w₁₀, w₁₁, u₀, u₁, u₂, u₃, u₄, u₅, u₆, u₇, u₈, u₉,
      u₁₀, u₁₁, u₁₂, List.append_nil]
    rfl
  · rintro ⟨hf, rfl⟩
    exact ⟨(), _, _, rfl, ⟨f.context, _, _, rfl, ⟨f.callerKind, _, _, rfl, ⟨f.source, _, _, rfl,
      ⟨f.externalPubkey, _, _, rfl, ⟨f.destination, _, _, rfl, ⟨f.selectedCodeId, _, _, rfl,
      ⟨f.requiredStateOutputMode, _, _, rfl, ⟨f.extra, _, _, ⟨hf.extra_ok, rfl⟩,
      ⟨f.state, _, _, ⟨hf.state_length, rfl⟩, ⟨f.messageBytes, _, _,
      ⟨hf.messageBytes_length, rfl⟩, ⟨f.internalEventResults, _, [],
      ⟨hf.internalEventResults_length, rfl⟩, ⟨rfl, rfl⟩, (List.append_nil _).symm⟩, rfl⟩, rfl⟩,
      rfl⟩, rfl⟩, rfl⟩, rfl⟩, rfl⟩, rfl⟩, rfl⟩, rfl⟩, rfl⟩

/-! ## Frames and inputs -/

/-- The sender that a frame names agrees with the one in its message: an internal message with
the frame's source and no key, or an external message with the frame's key and no source. -/
def MessageFrame.NamesCaller (f : MessageFrame) (message : CanonicalMessage) (caller : Caller) :
    Prop :=
  (f.callerKind = 0 ∧ ∃ m, message = .internal m ∧ f.source = m.source ∧
    f.externalPubkey = zeros 32 ∧ caller = .internal m.source) ∨
  (f.callerKind = 1 ∧ ∃ m, message = .external m ∧ f.source = ⟨zeros 32, zeros 32⟩ ∧
    f.externalPubkey = m.pubkey ∧ caller = .external m.pubkey)

omit [Target] in
/-- The caller is the one that the frame names. -/
theorem frameCaller_ok_iff {f : MessageFrame} {message : CanonicalMessage} {caller : Caller} :
    frameCaller f message = .ok caller ↔ f.NamesCaller message caller := by
  have haddress : ∀ a : AccountAddress, f.source = a ↔
      f.source.dappId = a.dappId ∧ f.source.accountId = a.accountId := by
    intro a
    exact AccountAddress.mk.injEq .. ▸ Iff.rfl
  unfold frameCaller MessageFrame.NamesCaller
  by_cases h₀ : f.callerKind = 0
  · have h₁ : f.callerKind ≠ 1 := by rw [h₀]; decide
    rw [if_pos h₀]
    cases message with
    | internal m =>
        simp only [ite_ok_iff, haddress]
        constructor
        · rintro ⟨⟨hpubkey, hdapp, haccount⟩, rfl⟩
          exact Or.inl ⟨h₀, m, rfl, ⟨hdapp, haccount⟩, hpubkey, rfl⟩
        · rintro (⟨-, m', ⟨⟩, ⟨hdapp, haccount⟩, hpubkey, rfl⟩ | ⟨hkind, -⟩)
          · exact ⟨⟨hpubkey, hdapp, haccount⟩, rfl⟩
          · exact absurd hkind h₁
    | external m =>
        constructor
        · intro h
          cases h
        · rintro (⟨-, m', ⟨⟩, -⟩ | ⟨hkind, -⟩)
          exact absurd hkind h₁
  by_cases h₁ : f.callerKind = 1
  · rw [if_neg h₀, if_pos h₁]
    cases message with
    | internal m =>
        constructor
        · intro h
          cases h
        · rintro (⟨hkind, -⟩ | ⟨-, m', ⟨⟩, -⟩)
          exact absurd hkind h₀
    | external m =>
        simp only [ite_ok_iff, haddress]
        constructor
        · rintro ⟨⟨hdapp, haccount, hpubkey⟩, rfl⟩
          exact Or.inr ⟨h₁, m, rfl, ⟨hdapp, haccount⟩, hpubkey, congrArg Caller.external hpubkey⟩
        · rintro (⟨hkind, -⟩ | ⟨-, m', ⟨⟩, ⟨hdapp, haccount⟩, hpubkey, rfl⟩)
          · exact absurd hkind h₀
          · exact ⟨⟨hdapp, haccount, hpubkey⟩, congrArg Caller.external hpubkey⟩
  · rw [if_neg h₀, if_neg h₁]
    constructor
    · intro h
      cases h
    · rintro (⟨hkind, -⟩ | ⟨hkind, -⟩)
      · exact absurd hkind h₀
      · exact absurd hkind h₁

/-- The identity that a message carries: its source, or the key that signed it. -/
def CanonicalMessage.sender : CanonicalMessage → Caller
  | internal message => .internal message.source
  | external message => .external message.pubkey

/-- The frame that carries an input. -/
def MessageInput.frame (x : MessageInput) : MessageFrame where
  context := x.context
  callerKind := match x.caller with
    | .internal _ => 0
    | .external _ => 1
  source := match x.caller with
    | .internal source => source
    | .external _ => ⟨zeros 32, zeros 32⟩
  externalPubkey := match x.caller with
    | .internal _ => zeros 32
    | .external pubkey => pubkey
  destination := x.destination
  selectedCodeId := x.selectedCodeId
  requiredStateOutputMode := x.requiredStateOutputMode
  extra := x.extra
  state := x.state
  messageBytes := x.message.serialize
  internalEventResults := x.internalEventResults

/-- The `ACMI` serialization of an input. -/
def MessageInput.serialize (x : MessageInput) : Bytes := x.frame.toBytes

/-- The well-formed inputs: a well-formed frame around a well-formed message to the frame's
destination, from the sender that the message names. -/
structure MessageInput.WellFormed (x : MessageInput) : Prop where
  frame_ok : x.frame.WellFormed
  message_ok : x.message.WellFormed
  message_canonical : x.message.canonicalBytes = x.message.serialize
  destination_eq : x.message.destination = x.destination
  caller_eq : x.caller = x.message.sender

/-- `decode_message_input` accepts the frames that carry an input, and returns that input. -/
theorem decodeMessageInput_frame_iff (b : Slice) (x : MessageInput) :
    decodeMessageInput b.bytes = .ok x ↔
      ∃ f : MessageFrame, f.toBytes = b.bytes ∧ f.WellFormed ∧
        decodeCanonicalMessage f.messageBytes = .ok x.message ∧
        x.message.destination = f.destination ∧ f.NamesCaller x.message x.caller ∧
        x = ⟨f.context, x.caller, f.destination, f.selectedCodeId, f.requiredStateOutputMode,
          f.extra, f.state, x.message, f.internalEventResults⟩ := by
  have hread := fun f => reads_run_finish reads_readMessageFrame (sound_new b.length_le) f
  simp only [rest_new] at hread
  simp only [decodeMessageInput, bind_ok_iff, failIf_ok_iff, pure_ok_iff, exists_const]
  constructor
  · rintro ⟨⟨f, reader⟩, hrun, ⟨⟩, hfin, message, hmessage, hdest, caller, hcaller, rfl⟩
    obtain ⟨hf, hbytes⟩ := (hread f).mp ⟨reader, hrun, hfin⟩
    exact ⟨f, hbytes.symm, hf, hmessage, not_not.mp hdest, frameCaller_ok_iff.mp hcaller, rfl⟩
  · rintro ⟨f, hbytes, hf, hmessage, hdest, hcaller, hx⟩
    obtain ⟨reader, hrun, hfin⟩ := (hread f).mpr ⟨hf, hbytes.symm⟩
    exact ⟨(f, reader), hrun, (), hfin, x.message, hmessage, not_not.mpr hdest, x.caller,
      frameCaller_ok_iff.mpr hcaller, hx.symm⟩

/-- A section of a frame is a slice: its length fits the prefix. -/
def Slice.ofSection (bytes : Bytes) (h : bytes.length < 2 ^ 32) : Slice :=
  ⟨bytes, by have := Target.u32_le_usizeMax; omega⟩

omit [Target] in
/-- The frame of an input names the caller of the input. -/
theorem MessageInput.frame_namesCaller {x : MessageInput} (h : x.caller = x.message.sender) :
    x.frame.NamesCaller x.message x.caller := by
  cases hm : x.message with
  | internal m =>
      rw [hm] at h
      refine Or.inl ⟨?_, m, rfl, ?_, ?_, h⟩ <;> simp only [frame, h, CanonicalMessage.sender]
  | external m =>
      rw [hm] at h
      refine Or.inr ⟨?_, m, rfl, ?_, ?_, h⟩ <;> simp only [frame, h, CanonicalMessage.sender]

omit [Target] in
/-- A frame that carries an input is the frame of that input. -/
theorem MessageFrame.eq_frame {f : MessageFrame} {x : MessageInput}
    (hmessage : f.messageBytes = x.message.serialize) (hcaller : f.NamesCaller x.message x.caller)
    (hx : x = ⟨f.context, x.caller, f.destination, f.selectedCodeId, f.requiredStateOutputMode,
      f.extra, f.state, x.message, f.internalEventResults⟩) :
    f = x.frame ∧ x.caller = x.message.sender := by
  obtain ⟨context, kind, source, pubkey, destination, codeId, mode, extra, state, message,
    results⟩ := f
  obtain ⟨context', caller', destination', codeId', mode', extra', state', message',
    results'⟩ := x
  simp only [MessageInput.mk.injEq] at hx hmessage
  obtain ⟨rfl, -, rfl, rfl, rfl, rfl, rfl, -, rfl⟩ := hx
  subst hmessage
  rcases hcaller with ⟨hkind, m, hm, hsource, hpubkey, hcaller⟩ |
    ⟨hkind, m, hm, hsource, hpubkey, hcaller⟩ <;>
  · simp only at hkind hm hsource hpubkey hcaller
    subst hkind hm hsource hpubkey hcaller
    exact ⟨rfl, rfl⟩

/-- A byte string is decoded to an input exactly when it is the `ACMI` serialization of that input
and the input is well formed. -/
theorem decodeMessageInput_ok_iff (b : Slice) (x : MessageInput) :
    decodeMessageInput b.bytes = .ok x ↔ x.serialize = b.bytes ∧ x.WellFormed := by
  rw [decodeMessageInput_frame_iff]
  constructor
  · rintro ⟨f, hbytes, hf, hmessage, hdest, hcaller, hx⟩
    obtain ⟨hser, hcan, hm⟩ :=
      (decodeCanonicalMessage_ok_iff (.ofSection _ hf.messageBytes_length) x.message).mp hmessage
    obtain ⟨rfl, hsender⟩ := MessageFrame.eq_frame hser.symm hcaller hx
    exact ⟨hbytes, hf, hm, hcan, hdest, hsender⟩
  · rintro ⟨hbytes, hx⟩
    have hmessage := decodeCanonicalMessage_ok_iff
      (.ofSection _ hx.frame_ok.messageBytes_length) x.message
    exact ⟨x.frame, hbytes, hx.frame_ok,
      hmessage.mpr ⟨rfl, hx.message_canonical, hx.message_ok⟩, hx.destination_eq,
      MessageInput.frame_namesCaller hx.caller_eq, rfl⟩

/-- **The `ACMI` frame codec and its caller binding.** A byte string is decoded to an input exactly
when it is a well-formed frame that carries the input: the nested message is canonical and
addressed to the frame's destination, and the frame names the message's own sender, in one of the
two ways. The caller of the input is then the identity in the message, the serialization of the
input is the byte string, and no other byte string is decoded to it. -/
theorem messageInput_codec (b : Slice) (x : MessageInput) :
    (decodeMessageInput b.bytes = .ok x ↔
      ∃ f : MessageFrame, f.toBytes = b.bytes ∧ f.WellFormed ∧
        decodeCanonicalMessage f.messageBytes = .ok x.message ∧
        x.message.destination = f.destination ∧ f.NamesCaller x.message x.caller ∧
        x = ⟨f.context, x.caller, f.destination, f.selectedCodeId, f.requiredStateOutputMode,
          f.extra, f.state, x.message, f.internalEventResults⟩) ∧
    (decodeMessageInput b.bytes = .ok x ↔ x.serialize = b.bytes ∧ x.WellFormed) ∧
    (decodeMessageInput b.bytes = .ok x → x.caller = x.message.sender) ∧
    (decodeMessageInput b.bytes = .ok x →
      ∀ b' : Slice, decodeMessageInput b'.bytes = .ok x → b'.bytes = b.bytes) := by
  refine ⟨decodeMessageInput_frame_iff b x, decodeMessageInput_ok_iff b x, ?_, ?_⟩
  · intro h
    exact ((decodeMessageInput_ok_iff b x).mp h).2.caller_eq
  · intro h b' h'
    have hb := ((decodeMessageInput_ok_iff b x).mp h).1
    have hb' := ((decodeMessageInput_ok_iff b' x).mp h').1
    rw [← hb, ← hb']

end

end AvmSdk.Sdk
