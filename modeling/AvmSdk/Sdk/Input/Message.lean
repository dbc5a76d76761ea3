import AvmSdk.Sdk.Input.Reader
import AvmSdk.Wire.Iteration

/-!
# Canonical messages

The message types of the input codec, the iterators over their packed sections, and
`decodeCanonicalMessage`. The body of `decode_internal_message` is cut at the points where the
source starts a new section (`readCallback`, `readCallbackHandler`, `readEventReads`); the order of
reads and checks is that of the source.
-/

namespace AvmSdk.Sdk

open Wire

/-- Source: `INTERNAL_HEADER_LEN` -/
def internalHeaderLen : ℕ := 176
/-- Source: `EXTERNAL_HEADER_LEN` -/
def externalHeaderLen : ℕ := 192
/-- Source: `EXTRA_CURRENCY_LEN` -/
def extraCurrencyLen : ℕ := 20
/-- Source: `INTERNAL_EVENT_READ_LEN` -/
def internalEventReadLen : ℕ := 72

/-- Source: `INTERNAL_FLAG_CALLBACK` -/
def internalFlagCallback : U8 := 1
/-- Source: `INTERNAL_FLAG_DEPLOY` -/
def internalFlagDeploy : U8 := 1 <<< 1
/-- Source: `INTERNAL_FLAG_CALLBACK_REQUEST` -/
def internalFlagCallbackRequest : U8 := 1 <<< 2
/-- Source: `INTERNAL_FLAG_EVENT_READS` -/
def internalFlagEventReads : U8 := 1 <<< 3
/-- Source: `EXTERNAL_FLAG_SIGNED` -/
def externalFlagSigned : U8 := 1
/-- Source: `EXTERNAL_FLAG_DEPLOY` -/
def externalFlagDeploy : U8 := 1 <<< 1

/-- Source: `input.rs` `Caller` -/
inductive Caller
  /-- The account that sent an internal message. -/
  | internal (source : AccountAddress)
  /-- The key that signed an external message. -/
  | external (pubkey : Bytes32)
deriving DecidableEq

/-- Source: `input.rs` `CallbackHeader` -/
structure CallbackHeader where
  /-- Hash of the message that caused the callback. -/
  causeMsgHash : Bytes32
  /-- The account that sent that message. -/
  causeAddress : AccountAddress
  /-- How that message ended. -/
  statusCode : U32
deriving DecidableEq

/-! ## Currency lists -/

/-- A packed list of currency entries.
Source: `input.rs` `CurrencyAmounts` -/
structure CurrencyAmounts where
  /-- The entries, packed. -/
  bytes : Bytes
  /-- The number of entries. -/
  count : U16
deriving DecidableEq

/-- Source: `input.rs` `CurrencyAmountIter` -/
structure CurrencyAmountIter where
  /-- The packed entries. -/
  bytes : Bytes
  /-- The offset of the next entry. -/
  position : ℕ

/-- Source: `input.rs` `CurrencyAmounts::len` -/
def CurrencyAmounts.len (self : CurrencyAmounts) : ℕ := self.count.toNat

/-- Source: `input.rs` `CurrencyAmounts::is_empty` -/
def CurrencyAmounts.isEmpty (self : CurrencyAmounts) : Prop := self.count = 0

instance (amounts : CurrencyAmounts) : Decidable amounts.isEmpty :=
  inferInstanceAs (Decidable (_ = _))

/-- Source: `input.rs` `CurrencyAmounts::iter` -/
def CurrencyAmounts.iter (self : CurrencyAmounts) : CurrencyAmountIter := ⟨self.bytes, 0⟩

/-- Source: `input.rs` `InternalEventReadRequest` -/
structure InternalEventReadRequest where
  /-- The account whose events are read. -/
  source : AccountAddress
  /-- The class of events. -/
  eventClass : U64
deriving DecidableEq

/-- A packed list of event reads, after its count and two reserved bytes.
Source: `input.rs` `InternalEventReadRequests` -/
structure InternalEventReadRequests where
  /-- The whole section. -/
  canonicalBytes : Bytes
  /-- The number of requests. -/
  count : U16
deriving DecidableEq

/-- Source: `input.rs` `InternalEventReadRequestIter` -/
structure InternalEventReadRequestIter where
  /-- The packed requests. -/
  bytes : Bytes
  /-- The offset of the next request. -/
  position : ℕ

/-- Source: `input.rs` `InternalEventReadRequests::iter` -/
def InternalEventReadRequests.iter (self : InternalEventReadRequests) :
    InternalEventReadRequestIter :=
  ⟨(getRange self.canonicalBytes 4 self.canonicalBytes.length).getD [], 0⟩

/-- The tuple by which event reads are ordered. -/
abbrev EventReadKey := Bytes32 × Bytes32 × U64

/-- The order of tuples and byte arrays in Rust: lexicographic. -/
def EventReadKey.Lt (a b : EventReadKey) : Prop :=
  a.1.val < b.1.val ∨ a.1 = b.1 ∧ (a.2.1.val < b.2.1.val ∨ a.2.1 = b.2.1 ∧ a.2.2 < b.2.2)

instance : DecidableRel EventReadKey.Lt := fun _ _ => inferInstanceAs (Decidable (_ ∨ _))

/-- The key that `decode_internal_message` compares. -/
def InternalEventReadRequest.key (request : InternalEventReadRequest) : EventReadKey :=
  (request.source.dappId, request.source.accountId, request.eventClass)

section

variable [Target]

/-- Source: `input.rs` `CurrencyAmountIter::next` -/
def CurrencyAmountIter.next (self : CurrencyAmountIter) :
    Option (CurrencyAmount × CurrencyAmountIter) := do
  let stop ← checkedAdd self.position extraCurrencyLen
  let bytes ← getRange self.bytes self.position stop
  let id ← getRange bytes 0 4
  let id ← tryIntoArray 4 id
  let amount ← getRange bytes 4 20
  let amount ← tryIntoArray 16 amount
  pure (⟨ofLe 32 id.val, ofLe 128 amount.val⟩, { self with position := stop })

/-- The entries that a loop over the list sees. -/
def CurrencyAmounts.items (self : CurrencyAmounts) : List CurrencyAmount :=
  drain CurrencyAmountIter.next (self.bytes.length + 1) self.iter

/-- Source: `input.rs` `InternalEventReadRequestIter::next` -/
def InternalEventReadRequestIter.next (self : InternalEventReadRequestIter) :
    Option (InternalEventReadRequest × InternalEventReadRequestIter) := do
  let stop ← checkedAdd self.position internalEventReadLen
  let bytes ← getRange self.bytes self.position stop
  let dappId ← getRange bytes 0 32
  let dappId ← tryIntoArray 32 dappId
  let accountId ← getRange bytes 32 64
  let accountId ← tryIntoArray 32 accountId
  let eventClass ← getRange bytes 64 72
  let eventClass ← tryIntoArray 8 eventClass
  pure (⟨⟨dappId, accountId⟩, ofLe 64 eventClass.val⟩, { self with position := stop })

/-- The requests that a loop over the list sees. -/
def InternalEventReadRequests.items (self : InternalEventReadRequests) :
    List InternalEventReadRequest :=
  drain InternalEventReadRequestIter.next (self.iter.bytes.length + 1) self.iter

end

/-! ## Messages -/

/-- Source: `input.rs` `InternalMessage` -/
structure InternalMessage where
  flags : U8
  methodId : U64
  fuelFeeShells : U128
  createdLt : U64
  createdAt : U32
  source : AccountAddress
  destination : AccountAddress
  callback : Option CallbackHeader
  callbackHandlerMethodId : Option U64
  eventReads : Option InternalEventReadRequests
  extra : CurrencyAmounts
  body : Bytes
  canonicalBytes : Bytes
deriving DecidableEq

/-- Source: `input.rs` `ExternalMessage` -/
structure ExternalMessage where
  flags : U8
  methodId : U64
  fuelFeeShells : U128
  nonce : U64
  createdAt : U32
  expireAt : U32
  destination : AccountAddress
  pubkey : Bytes32
  extra : CurrencyAmounts
  body : Bytes
  signature : Bytes
  canonicalBytes : Bytes
deriving DecidableEq

/-- Source: `input.rs` `CanonicalMessage` -/
inductive CanonicalMessage
  /-- A message between accounts. -/
  | internal (message : InternalMessage)
  /-- A signed message from outside. -/
  | external (message : ExternalMessage)
deriving DecidableEq

namespace CanonicalMessage

/-- Source: `input.rs` `CanonicalMessage::method_id` -/
def methodId : CanonicalMessage → U64
  | internal message => message.methodId
  | external message => message.methodId

/-- Source: `input.rs` `CanonicalMessage::body` -/
def body : CanonicalMessage → Bytes
  | internal message => message.body
  | external message => message.body

/-- Source: `input.rs` `CanonicalMessage::destination` -/
def destination : CanonicalMessage → AccountAddress
  | internal message => message.destination
  | external message => message.destination

/-- Source: `input.rs` `CanonicalMessage::extra` -/
def extra : CanonicalMessage → CurrencyAmounts
  | internal message => message.extra
  | external message => message.extra

/-- Source: `input.rs` `CanonicalMessage::canonical_bytes` -/
def canonicalBytes : CanonicalMessage → Bytes
  | internal message => message.canonicalBytes
  | external message => message.canonicalBytes

/-- Source: `input.rs` `CanonicalMessage::is_deploy` -/
def isDeploy : CanonicalMessage → Prop
  | internal message => message.flags &&& internalFlagDeploy ≠ 0
  | external message => message.flags &&& externalFlagDeploy ≠ 0

/-- Source: `input.rs` `CanonicalMessage::has_callback_request` -/
def hasCallbackRequest : CanonicalMessage → Prop
  | internal message => message.flags &&& internalFlagCallbackRequest ≠ 0
  | external _ => False

/-- Source: `input.rs` `CanonicalMessage::is_callback` -/
def isCallback : CanonicalMessage → Prop
  | internal message => message.flags &&& internalFlagCallback ≠ 0
  | external _ => False

instance : DecidablePred isDeploy := fun m => by
  cases m <;> unfold isDeploy <;> infer_instance

instance : DecidablePred hasCallbackRequest := fun m => by
  cases m <;> unfold hasCallbackRequest <;> infer_instance

instance : DecidablePred isCallback := fun m => by
  cases m <;> unfold isCallback <;> infer_instance

end CanonicalMessage

/-! ## Decoding -/

section

variable [Target]

/-- Run a reader and keep the bytes it consumed: `bytes.get(start..reader.position)` around it. -/
def Reader.recorded {α : Type} (p : ReadM α) : ReadM (α × Bytes) := do
  let start ← get
  let a ← p
  let stop ← get
  let bytes ← okOr (getRange stop.bytes start.position stop.position) DecodeError.invalidLength
  pure (a, bytes)

/-- Source: `input.rs` `read_currency_amounts_with_count` -/
def readCurrencyAmountsWithCount (count : U16) : ReadM CurrencyAmounts := do
  let length ← okOr (checkedMul count.toNat extraCurrencyLen) DecodeError.integerOverflow
  let bytes ← Reader.take length
  let amounts : CurrencyAmounts := ⟨bytes, count⟩
  checkAscending (· < ·) CurrencyAmount.currencyId DecodeError.unsorted none amounts.items
  pure amounts

/-- Source: `input.rs` `read_currency_amounts` -/
def readCurrencyAmounts : ReadM CurrencyAmounts := do
  let count ← Reader.u16
  readCurrencyAmountsWithCount count

/-- The callback header of an internal message.
Source: `input.rs` `decode_internal_message`, `let callback` -/
def readCallbackHeader (destination : AccountAddress) : ReadM CallbackHeader := do
  let causeMsgHash ← Reader.fixed 32
  let dappId ← Reader.fixed 32
  let accountId ← Reader.fixed 32
  let statusCode ← Reader.u32
  let causeAddress : AccountAddress := ⟨dappId, accountId⟩
  failIf (causeMsgHash = zeros 32 ∨ isZeroAddress causeAddress ∨ causeAddress ≠ destination)
    DecodeError.invalidValue
  pure ⟨causeMsgHash, causeAddress, statusCode⟩

/-- The handler of a requested callback.
Source: `input.rs` `decode_internal_message`, `let callback_handler_method_id` -/
def readCallbackHandler : ReadM U64 := do
  let methodId ← Reader.u64
  failIf (methodId = 0) DecodeError.invalidValue
  pure methodId

/-- The event-read section.
Source: `input.rs` `decode_internal_message`, `let event_reads` -/
def readEventReads : ReadM InternalEventReadRequests := do
  let (count, canonicalBytes) ← Reader.recorded do
    let count ← Reader.u16
    failIf (count = 0) DecodeError.invalidValue
    let reserved ← Reader.take 2
    requireZero reserved
    let recordsLen ← okOr (checkedMul count.toNat internalEventReadLen) DecodeError.integerOverflow
    let _ ← Reader.take recordsLen
    pure count
  let requests : InternalEventReadRequests := ⟨canonicalBytes, count⟩
  checkAscending EventReadKey.Lt InternalEventReadRequest.key DecodeError.unsorted none
    requests.items
  pure requests

/-- What an internal message carries after its header. -/
structure InternalSections where
  callback : Option CallbackHeader
  callbackHandlerMethodId : Option U64
  eventReads : Option InternalEventReadRequests
  extra : CurrencyAmounts
  body : Bytes

/-- The cursor part of `decode_internal_message`. -/
def readInternalSections (flags : U8) (destination : AccountAddress) (extraCount : U16)
    (bodyLen : ℕ) : ReadM InternalSections := do
  let callback ← optionally (flags &&& internalFlagCallback ≠ 0) (readCallbackHeader destination)
  let callbackHandlerMethodId ←
    optionally (flags &&& internalFlagCallbackRequest ≠ 0) readCallbackHandler
  let eventReads ← optionally (flags &&& internalFlagEventReads ≠ 0) readEventReads
  let extra ← readCurrencyAmountsWithCount extraCount
  let body ← Reader.take bodyLen
  pure ⟨callback, callbackHandlerMethodId, eventReads, extra, body⟩

/-- The rules between a callback header, the method and the body.
Source: `input.rs` `decode_internal_message`, `if let Some(callback)` -/
def checkCallback (header : Bytes) (callback : Option CallbackHeader) (body : Bytes) :
    Except DecodeError Unit :=
  match callback with
  | some callback => do
      let methodId ← readU64At header 8
      failIf (methodId = 0 ∧ callback.statusCode = 0 ∨ callback.statusCode ≠ 0 ∧ body ≠ [])
        .invalidValue
  | none => .ok ()

/-- Source: `input.rs` `decode_internal_message` -/
def decodeInternalMessage (bytes : Bytes) : Except DecodeError InternalMessage := do
  let header ← okOr (getRange bytes 0 internalHeaderLen) .unexpectedEof
  -- `header[1]`: the header has 176 bytes
  let flags := header.getD 1 0
  failIf (flags &&& ~~~(internalFlagCallback ||| internalFlagDeploy |||
        internalFlagCallbackRequest ||| internalFlagEventReads) ≠ 0 ∨
      flags &&& internalFlagCallback ≠ 0 ∧
        flags &&& (internalFlagDeploy ||| internalFlagCallbackRequest) ≠ 0) .invalidValue
  let reserved ← okOr (getRange header 44 48) .unexpectedEof
  requireZero reserved
  let extraCount ← readU16At header 2
  let bodyLen ← readU32At header 4
  let bodyLen ← Reader.toUsize bodyLen
  let sourceDapp ← readFixedAt 32 header 48
  let sourceAccount ← readFixedAt 32 header 80
  let source : AccountAddress := ⟨sourceDapp, sourceAccount⟩
  let destinationDapp ← readFixedAt 32 header 112
  let destinationAccount ← readFixedAt 32 header 144
  let destination : AccountAddress := ⟨destinationDapp, destinationAccount⟩
  failIf (isZeroAddress source ∨ isZeroAddress destination) .invalidValue
  let reader ← Reader.withPosition bytes internalHeaderLen
  let (sections, reader) ← readInternalSections flags destination extraCount bodyLen reader
  reader.finish
  checkCallback header sections.callback sections.body
  let methodId ← readU64At header 8
  let fuelFeeShells ← readU128At header 16
  let createdLt ← readU64At header 32
  let createdAt ← readU32At header 40
  pure
    { flags := flags
      methodId := methodId
      fuelFeeShells := fuelFeeShells
      createdLt := createdLt
      createdAt := createdAt
      source := source
      destination := destination
      callback := sections.callback
      callbackHandlerMethodId := sections.callbackHandlerMethodId
      eventReads := sections.eventReads
      extra := sections.extra
      body := sections.body
      canonicalBytes := bytes }

/-- The cursor part of `decode_external_message`: extra currencies, body, signature. -/
def readExternalSections (extraCount : U16) (bodyLen signatureLen : ℕ) :
    ReadM (CurrencyAmounts × Bytes × Bytes) := do
  let extra ← readCurrencyAmountsWithCount extraCount
  let body ← Reader.take bodyLen
  let signature ← Reader.take signatureLen
  pure (extra, body, signature)

/-- Source: `input.rs` `decode_external_message` -/
def decodeExternalMessage (bytes : Bytes) : Except DecodeError ExternalMessage := do
  let header ← okOr (getRange bytes 0 externalHeaderLen) .unexpectedEof
  -- `header[1]`: the header has 192 bytes
  let flags := header.getD 1 0
  failIf (flags &&& ~~~(externalFlagSigned ||| externalFlagDeploy) ≠ 0 ∨
      flags &&& externalFlagSigned = 0) .invalidValue
  let reserved ← okOr (getRange header 146 192) .unexpectedEof
  requireZero reserved
  let signatureLen ← readU16At header 144
  failIf (signatureLen ≠ 64) .invalidLength
  let extraCount ← readU16At header 2
  let bodyLen ← readU32At header 4
  let bodyLen ← Reader.toUsize bodyLen
  let destinationDapp ← readFixedAt 32 header 48
  let destinationAccount ← readFixedAt 32 header 80
  let destination : AccountAddress := ⟨destinationDapp, destinationAccount⟩
  let pubkey ← readFixedAt 32 header 112
  failIf (isZeroAddress destination ∨ pubkey = zeros 32) .invalidValue
  let reader ← Reader.withPosition bytes externalHeaderLen
  let ((extra, body, signature), reader) ←
    readExternalSections extraCount bodyLen signatureLen.toNat reader
  reader.finish
  let methodId ← readU64At header 8
  let fuelFeeShells ← readU128At header 16
  let nonce ← readU64At header 32
  let createdAt ← readU32At header 40
  let expireAt ← readU32At header 44
  pure
    { flags := flags
      methodId := methodId
      fuelFeeShells := fuelFeeShells
      nonce := nonce
      createdAt := createdAt
      expireAt := expireAt
      destination := destination
      pubkey := pubkey
      extra := extra
      body := body
      signature := signature
      canonicalBytes := bytes }

/-- Source: `input.rs` `decode_canonical_message` -/
def decodeCanonicalMessage (bytes : Bytes) : Except DecodeError CanonicalMessage :=
  match bytes with
  | [] => .error .unexpectedEof
  | tag :: _ =>
      if tag = 0 then CanonicalMessage.internal <$> decodeInternalMessage bytes
      else if tag = 1 then CanonicalMessage.external <$> decodeExternalMessage bytes
      else .error .unknownTag

end

end AvmSdk.Sdk
