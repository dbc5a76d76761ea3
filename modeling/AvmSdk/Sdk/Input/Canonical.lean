import AvmSdk.Sdk.Input.Sections

/-!
# The canonical message codec

`decodeCanonicalMessage` is the inverse of the serialization of well-formed messages.

* `InternalHeader`, `ExternalHeader`: the fixed headers, as records with a fixed-width format, and
  the value of each field read at its offset.
* `decodeInternalMessage_header_iff`, `decodeExternalMessage_header_iff`: what the decoders do on
  a header followed by any bytes.
* `decodeCanonicalMessage_ok_iff`: a byte string is decoded to a message exactly when it is the
  serialization of that message and the message is well formed; `canonicalMessage_codec_bijective`
  adds that this message is the only one.
-/

namespace AvmSdk.Sdk

open Wire Wire.Cursor

/-! ## Headers -/

/-- The fixed header of an internal message, all 176 bytes of it. -/
structure InternalHeader where
  tag : U8
  flags : U8
  extraCount : U16
  bodyLen : U32
  methodId : U64
  fuelFeeShells : U128
  createdLt : U64
  createdAt : U32
  reserved : BytesN 4
  source : AccountAddress
  destination : AccountAddress

/-- The fixed header of an external message, all 192 bytes of it. -/
structure ExternalHeader where
  tag : U8
  flags : U8
  extraCount : U16
  bodyLen : U32
  methodId : U64
  fuelFeeShells : U128
  nonce : U64
  createdAt : U32
  expireAt : U32
  destination : AccountAddress
  pubkey : Bytes32
  signatureLen : U16
  reserved : BytesN 46

/-- The fields of an internal header in their order; the offset of each is in the comment. -/
def InternalHeader.format : FixedWidth Byte InternalHeader :=
  (word8.prod <| word8.prod <| word16.prod <| word32.prod <| word64.prod <| word128.prod <|
    word64.prod <| word32.prod <| (FixedWidth.array 4 (Nat.succ_pos 3)).prod <|
      AccountAddress.format.prod AccountAddress.format).equiv
    { toFun := fun ⟨tag, flags, extraCount, bodyLen, methodId, fuelFeeShells, createdLt, createdAt,
          reserved, source, destination⟩ =>
        ⟨tag, flags, extraCount, bodyLen, methodId, fuelFeeShells, createdLt, createdAt, reserved,
          source, destination⟩
      invFun := fun h =>
        ⟨h.tag, h.flags, h.extraCount, h.bodyLen, h.methodId, h.fuelFeeShells, h.createdLt,
          h.createdAt, h.reserved, h.source, h.destination⟩
      left_inv := fun _ => rfl
      right_inv := fun _ => rfl }

/-- The bytes of an internal header. The numbers are the offsets of the fields. -/
def InternalHeader.toBytes (h : InternalHeader) : Bytes :=
  toLe h.tag ++ -- 0
    (toLe h.flags ++ -- 1
      (toLe h.extraCount ++ -- 2
        (toLe h.bodyLen ++ -- 4
          (toLe h.methodId ++ -- 8
            (toLe h.fuelFeeShells ++ -- 16
              (toLe h.createdLt ++ -- 32
                (toLe h.createdAt ++ -- 40
                  (h.reserved.val ++ -- 44
                    (h.source.toBytes ++ -- 48
                      h.destination.toBytes))))))))) -- 112

/-- The format writes the header. -/
theorem InternalHeader.format_enc (h : InternalHeader) : format.enc h = h.toBytes := rfl

/-- Its length, -/
theorem InternalHeader.length_toBytes (h : InternalHeader) : h.toBytes.length = 176 :=
  format.length_enc h

/-- its flags -/
theorem InternalHeader.getD_flags (h : InternalHeader) : h.toBytes.getD 1 0 = h.flags := by
  simp [InternalHeader.toBytes, toLe, leBytes]

/-- and its reserved bytes. -/
theorem InternalHeader.getRange_reserved (h : InternalHeader) :
    getRange h.toBytes 44 48 = some h.reserved.val := by
  have hget := getRange_append [] h.reserved.val (h.source.toBytes ++ h.destination.toBytes)
  rw [List.nil_append, List.length_nil, Nat.zero_add, length_bytesN] at hget
  simp [InternalHeader.toBytes, getRange_skip, hget]

/-- The fields of an external header in their order. -/
def ExternalHeader.format : FixedWidth Byte ExternalHeader :=
  (word8.prod <| word8.prod <| word16.prod <| word32.prod <| word64.prod <| word128.prod <|
    word64.prod <| word32.prod <| word32.prod <| AccountAddress.format.prod <| bytes32.prod <|
      word16.prod (FixedWidth.array 46 (Nat.succ_pos 45))).equiv
    { toFun := fun ⟨tag, flags, extraCount, bodyLen, methodId, fuelFeeShells, nonce, createdAt,
          expireAt, destination, pubkey, signatureLen, reserved⟩ =>
        ⟨tag, flags, extraCount, bodyLen, methodId, fuelFeeShells, nonce, createdAt, expireAt,
          destination, pubkey, signatureLen, reserved⟩
      invFun := fun h =>
        ⟨h.tag, h.flags, h.extraCount, h.bodyLen, h.methodId, h.fuelFeeShells, h.nonce,
          h.createdAt, h.expireAt, h.destination, h.pubkey, h.signatureLen, h.reserved⟩
      left_inv := fun _ => rfl
      right_inv := fun _ => rfl }

/-- The bytes of an external header. The numbers are the offsets of the fields. -/
def ExternalHeader.toBytes (h : ExternalHeader) : Bytes :=
  toLe h.tag ++ -- 0
    (toLe h.flags ++ -- 1
      (toLe h.extraCount ++ -- 2
        (toLe h.bodyLen ++ -- 4
          (toLe h.methodId ++ -- 8
            (toLe h.fuelFeeShells ++ -- 16
              (toLe h.nonce ++ -- 32
                (toLe h.createdAt ++ -- 40
                  (toLe h.expireAt ++ -- 44
                    (h.destination.toBytes ++ -- 48
                      (h.pubkey.val ++ -- 112
                        (toLe h.signatureLen ++ -- 144
                          h.reserved.val))))))))))) -- 146

/-- The format writes the header. -/
theorem ExternalHeader.format_enc (h : ExternalHeader) : format.enc h = h.toBytes := rfl

/-- Its length, -/
theorem ExternalHeader.length_toBytes (h : ExternalHeader) : h.toBytes.length = 192 :=
  format.length_enc h

/-- its flags -/
theorem ExternalHeader.getD_flags (h : ExternalHeader) : h.toBytes.getD 1 0 = h.flags := by
  simp [ExternalHeader.toBytes, toLe, leBytes]

/-- and its reserved bytes. -/
theorem ExternalHeader.getRange_reserved (h : ExternalHeader) :
    getRange h.toBytes 146 192 = some h.reserved.val := by
  have hget := getRange_append [] h.reserved.val []
  rw [List.nil_append, List.length_nil, Nat.zero_add, length_bytesN, List.append_nil] at hget
  simp [ExternalHeader.toBytes, getRange_skip, hget]

/-- `Reader::with_position` at the end of a header. -/
theorem withPosition_behind {u v : Bytes} {n : ℕ} (hu : u.length = n) :
    Reader.withPosition (u ++ v) n = .ok ⟨u ++ v, u.length⟩ := by
  subst hu
  have hle : ¬ u.length > (u ++ v).length := by
    rw [List.length_append]
    omega
  simp only [Reader.withPosition, failIf, if_neg hle]
  rfl

/-- An array of zeros, as the reserved fields are tested. -/
theorem reserved_eq_zeros {n : ℕ} (a : BytesN n) :
    a.val = List.replicate a.val.length 0 ↔ a = zeros n := by
  rw [Subtype.ext_iff, a.property]
  rfl

section

variable [Target]

/-- Every field is read where it stands in an internal header, -/
theorem InternalHeader.read_fields (h : InternalHeader) :
    readU16At h.toBytes 2 = .ok h.extraCount ∧ readU32At h.toBytes 4 = .ok h.bodyLen ∧
    readU64At h.toBytes 8 = .ok h.methodId ∧ readU128At h.toBytes 16 = .ok h.fuelFeeShells ∧
    readU64At h.toBytes 32 = .ok h.createdLt ∧ readU32At h.toBytes 40 = .ok h.createdAt ∧
    readFixedAt 32 h.toBytes 48 = .ok h.source.dappId ∧
    readFixedAt 32 h.toBytes 80 = .ok h.source.accountId ∧
    readFixedAt 32 h.toBytes 112 = .ok h.destination.dappId ∧
    readFixedAt 32 h.toBytes 144 = .ok h.destination.accountId := by
  simp [InternalHeader.toBytes, AccountAddress.toBytes, readWordAt_skip, readWordAt_here,
    readFixedAt_skip, readFixedAt_here, readFixedAt_self]

/-- and in an external one. -/
theorem ExternalHeader.read_fields (h : ExternalHeader) :
    readU16At h.toBytes 2 = .ok h.extraCount ∧ readU32At h.toBytes 4 = .ok h.bodyLen ∧
    readU64At h.toBytes 8 = .ok h.methodId ∧ readU128At h.toBytes 16 = .ok h.fuelFeeShells ∧
    readU64At h.toBytes 32 = .ok h.nonce ∧ readU32At h.toBytes 40 = .ok h.createdAt ∧
    readU32At h.toBytes 44 = .ok h.expireAt ∧
    readFixedAt 32 h.toBytes 48 = .ok h.destination.dappId ∧
    readFixedAt 32 h.toBytes 80 = .ok h.destination.accountId ∧
    readFixedAt 32 h.toBytes 112 = .ok h.pubkey ∧
    readU16At h.toBytes 144 = .ok h.signatureLen := by
  simp [ExternalHeader.toBytes, AccountAddress.toBytes, readWordAt_skip, readWordAt_here,
    readFixedAt_skip, readFixedAt_here]

/-- What is left for the reader that starts behind a header. -/
theorem rest_behind (u v : Bytes) : rest (Reader.mk (u ++ v) u.length) = v := by
  show (u ++ v).drop u.length = v
  exact List.drop_left

/-- The reader that starts behind a header is sound. -/
theorem sound_behind {u v : Bytes} (h : (u ++ v).length ≤ usizeMax) :
    Sound (Reader.mk (u ++ v) u.length) := by
  refine ⟨?_, h⟩
  show u.length ≤ (u ++ v).length
  rw [List.length_append]
  exact Nat.le_add_right _ _

/-- `checkCallback` on a header with a method id. -/
theorem checkCallback_ok_iff {header body : Bytes} {methodId : U64}
    {callback : Option CallbackHeader} (h : readU64At header 8 = .ok methodId) {u : Unit} :
    checkCallback header callback body = .ok u ↔
      ∀ c ∈ callback, ¬ (methodId = 0 ∧ c.statusCode = 0 ∨ c.statusCode ≠ 0 ∧ body ≠ []) := by
  cases callback with
  | none => simp [checkCallback]
  | some c =>
      simp only [checkCallback, h, ok_bind, failIf_ok_iff, Option.mem_some_iff, forall_eq']

/-- The flags that `decode_internal_message` lets through. -/
def internalFlagsOk (flags : U8) : Prop :=
  flags &&& ~~~(internalFlagCallback ||| internalFlagDeploy ||| internalFlagCallbackRequest |||
    internalFlagEventReads) = 0 ∧
  (flags &&& internalFlagCallback ≠ 0 →
    flags &&& (internalFlagDeploy ||| internalFlagCallbackRequest) = 0)

/-- The message with a given header and given sections. -/
def InternalHeader.message (h : InternalHeader) (s : InternalSections) (bytes : Bytes) :
    InternalMessage where
  flags := h.flags
  methodId := h.methodId
  fuelFeeShells := h.fuelFeeShells
  createdLt := h.createdLt
  createdAt := h.createdAt
  source := h.source
  destination := h.destination
  callback := s.callback
  callbackHandlerMethodId := s.callbackHandlerMethodId
  eventReads := s.eventReads
  extra := s.extra
  body := s.body
  canonicalBytes := bytes

/-- `decode_internal_message` on a header and what follows it. -/
theorem decodeInternalMessage_header_iff (h : InternalHeader) {rest : Bytes}
    (hmax : (h.toBytes ++ rest).length ≤ usizeMax) {m : InternalMessage} :
    decodeInternalMessage (h.toBytes ++ rest) = .ok m ↔
      internalFlagsOk h.flags ∧ h.reserved = zeros 4 ∧
      ¬ (isZeroAddress h.source ∨ isZeroAddress h.destination) ∧
      ∃ s : InternalSections,
        s.Valid h.flags h.destination h.extraCount h.bodyLen.toNat ∧ rest = s.toBytes ∧
        (∀ c ∈ s.callback, ¬ (h.methodId = 0 ∧ c.statusCode = 0 ∨
          c.statusCode ≠ 0 ∧ s.body ≠ [])) ∧
        m = h.message s (h.toBytes ++ rest) := by
  obtain ⟨h₂, h₄, h₈, h₁₆, h₃₂, h₄₀, h₄₈, h₈₀, h₁₁₂, h₁₄₄⟩ := h.read_fields
  have hget : getRange (h.toBytes ++ rest) 0 176 = some h.toBytes := by
    have := getRange_append [] h.toBytes rest
    rwa [h.length_toBytes] at this
  have hposition := withPosition_behind (v := rest) h.length_toBytes
  have hread := fun s => reads_run_finish (reads_readInternalSections h.flags h.destination
    h.extraCount h.bodyLen.toNat) (sound_behind hmax) s
  simp only [rest_behind] at hread
  have hflags : ∀ flags : U8, ¬ (flags &&& ~~~(internalFlagCallback ||| internalFlagDeploy |||
      internalFlagCallbackRequest ||| internalFlagEventReads) ≠ 0 ∨
      flags &&& internalFlagCallback ≠ 0 ∧
        flags &&& (internalFlagDeploy ||| internalFlagCallbackRequest) ≠ 0) ↔
      internalFlagsOk flags := by
    intro flags
    rw [internalFlagsOk, not_or, not_not, not_and, not_not]
  simp only [decodeInternalMessage, bind_ok_iff, okOr_ok_iff, failIf_ok_iff, hget, h.getD_flags,
    h.getRange_reserved, internalHeaderLen, hposition, h₂, h₄, h₈, h₁₆, h₃₂, h₄₀, h₄₈, h₈₀, h₁₁₂,
    h₁₄₄, checkCallback_ok_iff h₈, Except.ok.injEq, Option.some.injEq, exists_eq_left',
    requireZero_ok_iff, toUsize_ok_iff, reserved_eq_zeros, pure_ok_iff, exists_const, hflags]
  constructor
  · rintro ⟨hf, hr, ha, ⟨s, reader⟩, hrun, ⟨⟩, hfin, hcb, rfl⟩
    obtain ⟨hs, hrest⟩ := (hread s).mp ⟨reader, hrun, hfin⟩
    exact ⟨hf, hr, ha, s, hs, hrest, hcb, rfl⟩
  · rintro ⟨hf, hr, ha, s, hs, hrest, hcb, rfl⟩
    obtain ⟨reader, hrun, hfin⟩ := (hread s).mpr ⟨hs, hrest⟩
    exact ⟨hf, hr, ha, (s, reader), hrun, (), hfin, hcb, rfl⟩

/-- The flags that `decode_external_message` lets through. -/
def externalFlagsOk (flags : U8) : Prop :=
  flags &&& ~~~(externalFlagSigned ||| externalFlagDeploy) = 0 ∧ flags &&& externalFlagSigned ≠ 0

/-- The message with a given header, extra currencies, body and signature. -/
def ExternalHeader.message (h : ExternalHeader) (s : CurrencyAmounts × Bytes × Bytes)
    (bytes : Bytes) : ExternalMessage where
  flags := h.flags
  methodId := h.methodId
  fuelFeeShells := h.fuelFeeShells
  nonce := h.nonce
  createdAt := h.createdAt
  expireAt := h.expireAt
  destination := h.destination
  pubkey := h.pubkey
  extra := s.1
  body := s.2.1
  signature := s.2.2
  canonicalBytes := bytes

/-- `decode_external_message` on a header and what follows it. -/
theorem decodeExternalMessage_header_iff (h : ExternalHeader) {rest : Bytes}
    (hmax : (h.toBytes ++ rest).length ≤ usizeMax) {m : ExternalMessage} :
    decodeExternalMessage (h.toBytes ++ rest) = .ok m ↔
      externalFlagsOk h.flags ∧ h.reserved = zeros 46 ∧ h.signatureLen = 64 ∧
      ¬ (isZeroAddress h.destination ∨ h.pubkey = zeros 32) ∧
      ∃ s : CurrencyAmounts × Bytes × Bytes,
        (s.1.count = h.extraCount ∧ s.1.WellFormed ∧ s.2.1.length = h.bodyLen.toNat ∧
          s.2.2.length = 64) ∧
        rest = s.1.bytes ++ (s.2.1 ++ s.2.2) ∧ m = h.message s (h.toBytes ++ rest) := by
  obtain ⟨h₂, h₄, h₈, h₁₆, h₃₂, h₄₀, h₄₄, h₄₈, h₈₀, h₁₁₂, h₁₄₄⟩ := h.read_fields
  have hget : getRange (h.toBytes ++ rest) 0 192 = some h.toBytes := by
    have := getRange_append [] h.toBytes rest
    rwa [h.length_toBytes] at this
  have hposition := withPosition_behind (v := rest) h.length_toBytes
  have hread := fun s => reads_run_finish (reads_readExternalSections h.extraCount
    h.bodyLen.toNat h.signatureLen.toNat) (sound_behind hmax) s
  simp only [rest_behind] at hread
  have hflags : ∀ flags : U8, ¬ (flags &&& ~~~(externalFlagSigned ||| externalFlagDeploy) ≠ 0 ∨
      flags &&& externalFlagSigned = 0) ↔ externalFlagsOk flags := by
    intro flags
    rw [externalFlagsOk, not_or, not_not]
  simp only [decodeExternalMessage, bind_ok_iff, okOr_ok_iff, failIf_ok_iff, hget, h.getD_flags,
    h.getRange_reserved, externalHeaderLen, hposition, h₂, h₄, h₈, h₁₆, h₃₂, h₄₀, h₄₄, h₄₈, h₈₀,
    h₁₁₂, h₁₄₄, Except.ok.injEq, Option.some.injEq, exists_eq_left', requireZero_ok_iff,
    toUsize_ok_iff, reserved_eq_zeros, pure_ok_iff, exists_const, hflags, not_not, ne_eq]
  constructor
  · rintro ⟨hf, hr, hsig, ha, ⟨s, reader⟩, hrun, ⟨⟩, hfin, rfl⟩
    obtain ⟨hs, hrest⟩ := (hread s).mp ⟨reader, hrun, hfin⟩
    rw [hsig] at hs
    exact ⟨hf, hr, hsig, ha, s, hs, hrest, rfl⟩
  · rintro ⟨hf, hr, hsig, ha, s, hs, hrest, rfl⟩
    have hs' := hs
    rw [show 64 = h.signatureLen.toNat by rw [hsig]; rfl] at hs'
    obtain ⟨reader, hrun, hfin⟩ := (hread s).mpr ⟨hs', hrest⟩
    exact ⟨hf, hr, hsig, ha, (s, reader), hrun, (), hfin, rfl⟩

end

/-! ## Serialization -/

/-- The header of an internal message. -/
def InternalMessage.header (m : InternalMessage) : InternalHeader where
  tag := 0
  flags := m.flags
  extraCount := m.extra.count
  bodyLen := BitVec.ofNat 32 m.body.length
  methodId := m.methodId
  fuelFeeShells := m.fuelFeeShells
  createdLt := m.createdLt
  createdAt := m.createdAt
  reserved := zeros 4
  source := m.source
  destination := m.destination

/-- The sections of an internal message. -/
def InternalMessage.sections (m : InternalMessage) : InternalSections where
  callback := m.callback
  callbackHandlerMethodId := m.callbackHandlerMethodId
  eventReads := m.eventReads
  extra := m.extra
  body := m.body

/-- The canonical serialization of an internal message: header, callback header, callback handler
id, event reads, extra currencies, body. -/
def InternalMessage.serialize (m : InternalMessage) : Bytes :=
  m.header.toBytes ++ m.sections.toBytes

/-- The header of an external message. -/
def ExternalMessage.header (m : ExternalMessage) : ExternalHeader where
  tag := 1
  flags := m.flags
  extraCount := m.extra.count
  bodyLen := BitVec.ofNat 32 m.body.length
  methodId := m.methodId
  fuelFeeShells := m.fuelFeeShells
  nonce := m.nonce
  createdAt := m.createdAt
  expireAt := m.expireAt
  destination := m.destination
  pubkey := m.pubkey
  signatureLen := 64
  reserved := zeros 46

/-- The canonical serialization of an external message: header, extra currencies, body,
signature. -/
def ExternalMessage.serialize (m : ExternalMessage) : Bytes :=
  m.header.toBytes ++ (m.extra.bytes ++ (m.body ++ m.signature))

/-- The canonical serialization of a message. -/
def CanonicalMessage.serialize : CanonicalMessage → Bytes
  | internal message => message.serialize
  | external message => message.serialize

/-- An internal message starts with the tag zero, -/
theorem InternalMessage.head?_serialize (m : InternalMessage) : m.serialize.head? = some 0 := by
  simp [serialize, header, InternalHeader.toBytes, toLe, leBytes]

/-- an external one with the tag one. -/
theorem ExternalMessage.head?_serialize (m : ExternalMessage) : m.serialize.head? = some 1 := by
  simp [serialize, header, ExternalHeader.toBytes, toLe, leBytes]

/-- The tag byte of a message. -/
def CanonicalMessage.tag : CanonicalMessage → U8
  | internal _ => 0
  | external _ => 1

/-- The first byte is the tag. -/
theorem CanonicalMessage.head?_serialize (m : CanonicalMessage) :
    m.serialize.head? = some m.tag := by
  cases m with
  | internal message => exact message.head?_serialize
  | external message => exact message.head?_serialize

/-- An internal message is no shorter than its header, -/
theorem InternalMessage.length_serialize_ge (m : InternalMessage) : 176 ≤ m.serialize.length := by
  rw [serialize, List.length_append, InternalHeader.length_toBytes]
  exact Nat.le_add_right _ _

/-- and an external one neither. -/
theorem ExternalMessage.length_serialize_ge (m : ExternalMessage) : 192 ≤ m.serialize.length := by
  rw [serialize, List.length_append, ExternalHeader.length_toBytes]
  exact Nat.le_add_right _ _

/-- A length in range survives the header. -/
theorem toNat_bodyLen {n : ℕ} (h : n < 2 ^ 32) : (BitVec.ofNat 32 n).toNat = n := by
  rw [BitVec.toNat_ofNat, Nat.mod_eq_of_lt h]

/-- The header of a message that was put together from a header and sections. -/
theorem InternalHeader.header_message (h : InternalHeader) {s : InternalSections} {bytes : Bytes}
    (htag : h.tag = 0) (hcount : s.extra.count = h.extraCount)
    (hbody : s.body.length = h.bodyLen.toNat) (hreserved : h.reserved = zeros 4) :
    (h.message s bytes).header = h := by
  obtain ⟨tag, flags, extraCount, bodyLen, methodId, fuelFeeShells, createdLt, createdAt, reserved,
    source, destination⟩ := h
  simp only at htag hcount hbody hreserved
  subst htag hcount hreserved
  simp only [InternalHeader.message, InternalMessage.header, hbody, BitVec.ofNat_toNat,
    BitVec.setWidth_eq]

/-- The header of a message that was put together from a header and sections. -/
theorem ExternalHeader.header_message (h : ExternalHeader) {s : CurrencyAmounts × Bytes × Bytes}
    {bytes : Bytes} (htag : h.tag = 1) (hcount : s.1.count = h.extraCount)
    (hbody : s.2.1.length = h.bodyLen.toNat) (hsignature : h.signatureLen = 64)
    (hreserved : h.reserved = zeros 46) : (h.message s bytes).header = h := by
  obtain ⟨tag, flags, extraCount, bodyLen, methodId, fuelFeeShells, nonce, createdAt, expireAt,
    destination, pubkey, signatureLen, reserved⟩ := h
  simp only at htag hcount hbody hsignature hreserved
  subst htag hcount hsignature hreserved
  simp only [ExternalHeader.message, ExternalMessage.header, hbody, BitVec.ofNat_toNat,
    BitVec.setWidth_eq]

section

variable [Target]

/-- The well-formed internal messages: each optional section is there exactly under its flag, and
the sections agree with each other and with the header. -/
structure InternalMessage.WellFormed (m : InternalMessage) : Prop where
  flags_ok : internalFlagsOk m.flags
  source_ne_zero : ¬ isZeroAddress m.source
  destination_ne_zero : ¬ isZeroAddress m.destination
  callback_isSome : m.callback.isSome ↔ m.flags &&& internalFlagCallback ≠ 0
  handler_isSome : m.callbackHandlerMethodId.isSome ↔ m.flags &&& internalFlagCallbackRequest ≠ 0
  eventReads_isSome : m.eventReads.isSome ↔ m.flags &&& internalFlagEventReads ≠ 0
  callback_ok : ∀ c ∈ m.callback, c.causeMsgHash ≠ zeros 32 ∧ c.causeAddress = m.destination ∧
    ¬ (m.methodId = 0 ∧ c.statusCode = 0) ∧ (c.statusCode ≠ 0 → m.body = [])
  handler_ne_zero : ∀ methodId ∈ m.callbackHandlerMethodId, methodId ≠ 0
  eventReads_ok : ∀ reads ∈ m.eventReads, reads.WellFormed
  extra_ok : m.extra.WellFormed
  body_length : m.body.length < 2 ^ 32

/-- The well-formed external messages. -/
structure ExternalMessage.WellFormed (m : ExternalMessage) : Prop where
  flags_ok : externalFlagsOk m.flags
  destination_ne_zero : ¬ isZeroAddress m.destination
  pubkey_ne_zero : m.pubkey ≠ zeros 32
  extra_ok : m.extra.WellFormed
  body_length : m.body.length < 2 ^ 32
  signature_length : m.signature.length = 64

/-- The well-formed messages. -/
def CanonicalMessage.WellFormed : CanonicalMessage → Prop
  | internal message => message.WellFormed
  | external message => message.WellFormed

/-- `decode_internal_message` on bytes with the tag of an internal message. -/
theorem decodeInternalMessage_ok_iff (b : Slice) (hb : b.bytes.head? = some 0)
    (m : InternalMessage) :
    decodeInternalMessage b.bytes = .ok m ↔
      m.serialize = b.bytes ∧ m.canonicalBytes = b.bytes ∧ m.WellFormed := by
  obtain ⟨bytes, hmax⟩ := b
  simp only at hb ⊢
  by_cases hlen : bytes.length < 176
  · have hget : getRange bytes 0 internalHeaderLen = none := by
      rw [getRange, if_neg (by simp only [internalHeaderLen]; omega)]
    have hge := m.length_serialize_ge
    constructor
    · intro h
      rw [decodeInternalMessage, hget, okOr_none, error_bind] at h
      cases h
    · rintro ⟨rfl, -, -⟩
      omega
  · obtain ⟨h, rest, hbytes⟩ := InternalHeader.format.exists_append bytes
      (Nat.le_of_not_lt hlen)
    rw [InternalHeader.format_enc] at hbytes
    subst hbytes
    have htag : h.tag = 0 := by
      simpa [InternalHeader.toBytes, toLe, leBytes] using hb
    rw [decodeInternalMessage_header_iff h hmax]
    constructor
    · rintro ⟨hf, hr, ha, s, hs, rfl, hcb, rfl⟩
      rw [not_or] at ha
      have hbody : s.body.length < 2 ^ 32 := hs.body_length ▸ h.bodyLen.isLt
      refine ⟨?_, rfl, hf, ha.1, ha.2, hs.callback_isSome, hs.handler_isSome,
        hs.eventReads_isSome, ?_, hs.handler_valid, hs.eventReads_valid, hs.extra_valid, hbody⟩
      · rw [InternalMessage.serialize,
          h.header_message htag hs.extra_count hs.body_length hr]
        rfl
      · intro c hc
        obtain ⟨hhash, -, hdest⟩ := hs.callback_valid c hc
        obtain ⟨hmethod, hempty⟩ := not_or.mp (hcb c hc)
        rw [not_and, not_not] at hempty
        exact ⟨hhash, hdest, hmethod, hempty⟩
    · rintro ⟨hser, hcan, hm⟩
      obtain ⟨hheader, hsections⟩ := append_inj_of_length
        (by rw [InternalHeader.length_toBytes, InternalHeader.length_toBytes]) hser
      rw [← InternalHeader.format_enc, ← InternalHeader.format_enc] at hheader
      have heq : m.header = h := InternalHeader.format.enc_inj hheader
      subst heq
      refine ⟨hm.flags_ok, rfl, not_or.mpr ⟨hm.source_ne_zero, hm.destination_ne_zero⟩,
        m.sections, ⟨hm.callback_isSome, ?_, hm.handler_isSome, hm.handler_ne_zero,
          hm.eventReads_isSome, hm.eventReads_ok, rfl, hm.extra_ok, ?_⟩, hsections.symm, ?_, ?_⟩
      · intro c hc
        obtain ⟨hhash, hdest, -, -⟩ := hm.callback_ok c hc
        exact ⟨hhash, hdest ▸ hm.destination_ne_zero, hdest⟩
      · exact (toNat_bodyLen hm.body_length).symm
      · intro c hc
        obtain ⟨-, -, hmethod, hbody⟩ := hm.callback_ok c hc
        rw [not_or, not_and (b := m.sections.body ≠ []), not_not]
        exact ⟨hmethod, hbody⟩
      · rw [← hcan]
        rfl

/-- `decode_external_message` on bytes with the tag of an external message. -/
theorem decodeExternalMessage_ok_iff (b : Slice) (hb : b.bytes.head? = some 1)
    (m : ExternalMessage) :
    decodeExternalMessage b.bytes = .ok m ↔
      m.serialize = b.bytes ∧ m.canonicalBytes = b.bytes ∧ m.WellFormed := by
  obtain ⟨bytes, hmax⟩ := b
  simp only at hb ⊢
  by_cases hlen : bytes.length < 192
  · have hget : getRange bytes 0 externalHeaderLen = none := by
      rw [getRange, if_neg (by simp only [externalHeaderLen]; omega)]
    have hge := m.length_serialize_ge
    constructor
    · intro h
      rw [decodeExternalMessage, hget, okOr_none, error_bind] at h
      cases h
    · rintro ⟨rfl, -, -⟩
      omega
  · obtain ⟨h, rest, hbytes⟩ := ExternalHeader.format.exists_append bytes
      (Nat.le_of_not_lt hlen)
    rw [ExternalHeader.format_enc] at hbytes
    subst hbytes
    have htag : h.tag = 1 := by
      simpa [ExternalHeader.toBytes, toLe, leBytes] using hb
    rw [decodeExternalMessage_header_iff h hmax]
    constructor
    · rintro ⟨hf, hr, hsig, ha, s, ⟨hcount, hextra, hbody, hslen⟩, rfl, rfl⟩
      rw [not_or] at ha
      refine ⟨?_, rfl, hf, ha.1, ha.2, hextra, hbody ▸ h.bodyLen.isLt, hslen⟩
      rw [ExternalMessage.serialize, h.header_message htag hcount hbody hsig hr]
      rfl
    · rintro ⟨hser, hcan, hm⟩
      obtain ⟨hheader, hsections⟩ := append_inj_of_length
        (by rw [ExternalHeader.length_toBytes, ExternalHeader.length_toBytes]) hser
      rw [← ExternalHeader.format_enc, ← ExternalHeader.format_enc] at hheader
      have heq : m.header = h := ExternalHeader.format.enc_inj hheader
      subst heq
      refine ⟨hm.flags_ok, rfl, rfl, not_or.mpr ⟨hm.destination_ne_zero, hm.pubkey_ne_zero⟩,
        (m.extra, m.body, m.signature), ⟨rfl, hm.extra_ok, ?_, hm.signature_length⟩,
        hsections.symm, ?_⟩
      · exact (toNat_bodyLen hm.body_length).symm
      · rw [← hcan]
        rfl

/-- A byte string is decoded to a message exactly when it is the canonical serialization of that
message's fields and the message is well formed. -/
theorem decodeCanonicalMessage_ok_iff (b : Slice) (m : CanonicalMessage) :
    decodeCanonicalMessage b.bytes = .ok m ↔
      m.serialize = b.bytes ∧ m.canonicalBytes = b.bytes ∧ m.WellFormed := by
  have hinternal := decodeInternalMessage_ok_iff b
  have hexternal := decodeExternalMessage_ok_iff b
  obtain ⟨bytes, hmax⟩ := b
  simp only at hinternal hexternal ⊢
  cases bytes with
  | nil =>
      constructor
      · intro h
        cases h
      · rintro ⟨hser, -, -⟩
        have hhead := m.head?_serialize
        rw [hser] at hhead
        cases hhead
  | cons tag tail =>
      have hhead : m.serialize = tag :: tail → m.tag = tag := by
        intro hser
        have hhead := m.head?_serialize
        rw [hser] at hhead
        exact (Option.some.inj hhead).symm
      unfold decodeCanonicalMessage
      by_cases h₀ : tag = 0
      · simp only [if_pos h₀, map_ok_iff, hinternal (by rw [h₀]; rfl)]
        cases m with
        | internal message =>
            simp only [CanonicalMessage.internal.injEq, exists_eq_right]
            rfl
        | external message =>
            constructor
            · rintro ⟨_, -, h⟩
              cases h
            · rintro ⟨hser, -, -⟩
              exact absurd ((hhead hser).trans h₀) (show ¬ (1 : U8) = 0 by decide)
      by_cases h₁ : tag = 1
      · simp only [if_neg h₀, if_pos h₁, map_ok_iff, hexternal (by rw [h₁]; rfl)]
        cases m with
        | internal message =>
            constructor
            · rintro ⟨_, -, h⟩
              cases h
            · rintro ⟨hser, -, -⟩
              exact absurd ((hhead hser).trans h₁) (show ¬ (0 : U8) = 1 by decide)
        | external message =>
            simp only [CanonicalMessage.external.injEq, exists_eq_right]
            rfl
      · simp only [if_neg h₀, if_neg h₁]
        constructor
        · intro h
          cases h
        · rintro ⟨hser, -, -⟩
          have htag := hhead hser
          cases m with
          | internal message => exact absurd htag.symm h₀
          | external message => exact absurd htag.symm h₁

/-- **The canonical message codec is a bijection** between the byte strings that are accepted and
the well-formed messages that carry their own serialization. -/
theorem canonicalMessage_codec_bijective (b : Slice) :
    (∀ m, decodeCanonicalMessage b.bytes = .ok m ↔
      m.serialize = b.bytes ∧ m.canonicalBytes = b.bytes ∧ m.WellFormed) ∧
    ((∃ m, decodeCanonicalMessage b.bytes = .ok m) ↔
      ∃! m : CanonicalMessage,
        m.serialize = b.bytes ∧ m.canonicalBytes = b.bytes ∧ m.WellFormed) := by
  have hiff := decodeCanonicalMessage_ok_iff b
  refine ⟨hiff, ?_⟩
  constructor
  · intro ⟨m, hm⟩
    refine ⟨m, (hiff m).mp hm, ?_⟩
    intro m' hm'
    have h := (hiff m').mpr hm'
    rw [hm] at h
    exact (Except.ok.inj h).symm
  · intro ⟨m, hm, _⟩
    exact ⟨m, (hiff m).mpr hm⟩

end

end AvmSdk.Sdk
