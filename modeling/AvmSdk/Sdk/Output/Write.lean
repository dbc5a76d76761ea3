import AvmSdk.Sdk.Output.Types
import AvmSdk.Wire.Sink

/-!
# The output writer

The functions of `output.rs` that write an output, generic in the writer they write to, and the byte
strings that they write.

* `StateUpdate.toBytes`, `MessageOutput.toBytes`, `BatchOutput.toBytes`: the encodings, as plain
  concatenations; `Writable`: the lengths that have to fit their prefixes.
* `writes_writeMessageOutput`, `writes_writeBatchOutput`: to any writer, the writer functions write
  the encoding of a writable output and fail on any other.
-/

namespace AvmSdk.Sdk

open Wire

/-- Source: `FLAG_HAS_STATE_UPDATE` -/
def flagHasStateUpdate : U8 := 1
/-- Source: `FLAG_HAS_UPGRADE_INTENT` -/
def flagHasUpgradeIntent : U8 := 1 <<< 1

/-- The tag `b"ACMO"`. -/
def acmoMagic : Bytes := [0x41, 0x43, 0x4d, 0x4f]

/-- The tag `b"ACBO"`. -/
def acboMagic : Bytes := [0x41, 0x43, 0x42, 0x4f]

/-- The flags byte of a message output.
Source: `output.rs` `write_message_output`, `let mut flags` -/
def MessageOutput.flags (output : MessageOutput) : U8 :=
  (if output.stateUpdate.isSome then flagHasStateUpdate else 0) |||
    (if output.codeUpgradeIntent.isSome then flagHasUpgradeIntent else 0)

section

variable {σ : Type} [Sink EncodeError σ]

/-- Source: `output.rs` `push_length_prefixed_u32` -/
def pushLengthPrefixedU32 (value : Bytes) : WriteM EncodeError σ Unit := do
  let length ← lenU32 value.length
  write (toLe length)
  write value

/-- The body of the loop over patches.
Source: `output.rs` `encode_state_update`, `for patch in patches` -/
def encodePatch (patch : StatePatch) : WriteM EncodeError σ Unit := do
  write (toLe patch.offset)
  write (toLe patch.oldLen)
  let length ← lenU32 patch.newBytes.length
  write (toLe length)
  write patch.newBytes

/-- The list of patches.
Source: `output.rs` `encode_state_update`, `StateUpdate::DataPatchList` -/
def encodePatches (patches : List StatePatch) : WriteM EncodeError σ Unit := do
  let count ← lenU16 patches.length
  write (toLe count)
  write (toLe (0 : U16))
  patches.forM encodePatch

/-- Source: `output.rs` `encode_state_update` -/
def encodeStateUpdate (update : StateUpdate) : WriteM EncodeError σ Unit := do
  write [update.mode.toU8]
  write (zeros 3).val
  match update with
  | .fullReplace state => pushLengthPrefixedU32 state
  | .dataPatchList patches => encodePatches patches

/-- The body of the loop over extra currencies.
Source: `output.rs` `encode_outbound_intents`, `for amount in &intent.extra` -/
def encodeAmount (amount : CurrencyAmount) : WriteM EncodeError σ Unit := do
  write (toLe amount.currencyId)
  write (toLe amount.amount)

/-- The body of the loop over intents.
Source: `output.rs` `encode_outbound_intents`, `for intent in intents` -/
def encodeOutboundIntent (intent : OutboundIntent) : WriteM EncodeError σ Unit := do
  write (toLe intent.inputIndex)
  write intent.destination.dappId.val
  write intent.destination.accountId.val
  write (toLe intent.fuelFeeShells)
  let count ← lenU16 intent.extra.length
  write (toLe count)
  intent.extra.forM encodeAmount
  write (toLe intent.methodId)
  pushLengthPrefixedU32 intent.body

/-- Source: `output.rs` `encode_outbound_intents` -/
def encodeOutboundIntents (intents : List OutboundIntent) : WriteM EncodeError σ Unit := do
  let count ← lenU32 intents.length
  write (toLe count)
  intents.forM encodeOutboundIntent

/-- The body of the loop over topics.
Source: `output.rs` `encode_event_intents`, `for topic in &intent.topics` -/
def encodeTopic (topic : Bytes) : WriteM EncodeError σ Unit := do
  let length ← lenU16 topic.length
  write (toLe length)
  write topic

/-- The body of the loop over intents.
Source: `output.rs` `encode_event_intents`, `for intent in intents` -/
def encodeEventIntent (intent : EventIntent) : WriteM EncodeError σ Unit := do
  write (toLe intent.inputIndex)
  write [intent.kind.toU8]
  write (toLe intent.eventClass)
  let length ← lenU16 (asBytes intent.eventName).length
  write (toLe length)
  write (asBytes intent.eventName)
  let count ← lenU16 intent.topics.length
  write (toLe count)
  intent.topics.forM encodeTopic
  pushLengthPrefixedU32 intent.fieldsBinary

/-- Source: `output.rs` `encode_event_intents` -/
def encodeEventIntents (intents : List EventIntent) : WriteM EncodeError σ Unit := do
  let count ← lenU32 intents.length
  write (toLe count)
  intents.forM encodeEventIntent

/-- The body of the loop over callback intents.
Source: `output.rs` `write_message_output`, `for callback in &output.callback_intents` -/
def encodeCallbackIntent (callback : CallbackIntent) : WriteM EncodeError σ Unit := do
  write (toLe callback.outboundIndex)
  write (toLe callback.handlerMethodId)

/-- The callback intents of a message output, after their count. -/
def encodeCallbackIntents (intents : List CallbackIntent) : WriteM EncodeError σ Unit := do
  let count ← lenU32 intents.length
  write (toLe count)
  intents.forM encodeCallbackIntent

/-- The upgrade intent of a message output. -/
def encodeUpgradeIntent (upgrade : CodeUpgradeIntent) : WriteM EncodeError σ Unit := do
  write upgrade.targetSelectedCodeId.val
  write upgrade.expectedCodeHash.val

/-- A part of an output that may be absent, `if let Some(part) = ..`. -/
def encodeOptional {α : Type} (encode : α → WriteM EncodeError σ Unit) (part : Option α) :
    WriteM EncodeError σ Unit :=
  match part with
  | some part => encode part
  | none => pure ()

/-- Source: `output.rs` `write_message_output` -/
def writeMessageOutput (output : MessageOutput) : WriteM EncodeError σ Unit := do
  write acmoMagic
  write (toLe output.statusCode)
  write [output.flags]
  encodeOptional encodeStateUpdate output.stateUpdate
  pushLengthPrefixedU32 output.callbackResultBody
  encodeOutboundIntents output.outboundIntents
  encodeCallbackIntents output.callbackIntents
  encodeEventIntents output.eventIntents
  encodeOptional encodeUpgradeIntent output.codeUpgradeIntent

/-- The body of the loop over status codes.
Source: `output.rs` `write_batch_output`, `for status_code in &output.status_codes` -/
def encodeStatusCode (statusCode : U32) : WriteM EncodeError σ Unit := write (toLe statusCode)

/-- The status codes of a batch output, after their count. -/
def encodeStatusCodes (statusCodes : List U32) : WriteM EncodeError σ Unit := do
  let count ← lenU32 statusCodes.length
  write (toLe count)
  statusCodes.forM encodeStatusCode

/-- Source: `output.rs` `write_batch_output` -/
def writeBatchOutput (output : BatchOutput) : WriteM EncodeError σ Unit := do
  write acboMagic
  encodeStateUpdate output.stateUpdate
  encodeStatusCodes output.statusCodes
  encodeOutboundIntents output.outboundIntents
  encodeEventIntents output.eventIntents

end

/-! ## The bytes of an output -/

/-- The bytes of a patch. -/
def StatePatch.toBytes (patch : StatePatch) : Bytes :=
  toLe patch.offset ++ (toLe patch.oldLen ++ lengthPrefixed 4 patch.newBytes)

/-- The bytes of a state update behind its mode. -/
def StateUpdate.payload : StateUpdate → Bytes
  | fullReplace state => lengthPrefixed 4 state
  | dataPatchList patches =>
      leBytes 2 patches.length ++ (toLe (0 : U16) ++ patches.flatMap StatePatch.toBytes)

/-- The bytes of a state update. -/
def StateUpdate.toBytes (update : StateUpdate) : Bytes :=
  [update.mode.toU8] ++ ((zeros 3).val ++ update.payload)

/-- The bytes of an outbound intent. -/
def OutboundIntent.toBytes (intent : OutboundIntent) : Bytes :=
  toLe intent.inputIndex ++ (intent.destination.dappId.val ++ (intent.destination.accountId.val ++
    (toLe intent.fuelFeeShells ++ (counted 2 CurrencyAmount.toBytes intent.extra ++
      (toLe intent.methodId ++ lengthPrefixed 4 intent.body)))))

/-- The bytes of an event intent. -/
def EventIntent.toBytes (intent : EventIntent) : Bytes :=
  toLe intent.inputIndex ++ ([intent.kind.toU8] ++ (toLe intent.eventClass ++
    (lengthPrefixed 2 (asBytes intent.eventName) ++ (counted 2 (lengthPrefixed 2) intent.topics ++
      lengthPrefixed 4 intent.fieldsBinary))))

/-- The bytes of a callback intent. -/
def CallbackIntent.toBytes (callback : CallbackIntent) : Bytes :=
  toLe callback.outboundIndex ++ toLe callback.handlerMethodId

/-- The bytes of an upgrade intent. -/
def CodeUpgradeIntent.toBytes (upgrade : CodeUpgradeIntent) : Bytes :=
  upgrade.targetSelectedCodeId.val ++ upgrade.expectedCodeHash.val

/-- The `ACMO` encoding. -/
def MessageOutput.toBytes (output : MessageOutput) : Bytes :=
  acmoMagic ++ (toLe output.statusCode ++ ([output.flags] ++
    (output.stateUpdate.elim [] StateUpdate.toBytes ++
      (lengthPrefixed 4 output.callbackResultBody ++
        (counted 4 OutboundIntent.toBytes output.outboundIntents ++
          (counted 4 CallbackIntent.toBytes output.callbackIntents ++
            (counted 4 EventIntent.toBytes output.eventIntents ++
              output.codeUpgradeIntent.elim [] CodeUpgradeIntent.toBytes)))))))

/-- The `ACBO` encoding. -/
def BatchOutput.toBytes (output : BatchOutput) : Bytes :=
  acboMagic ++ (output.stateUpdate.toBytes ++ (counted 4 toLe output.statusCodes ++
    (counted 4 OutboundIntent.toBytes output.outboundIntents ++
      counted 4 EventIntent.toBytes output.eventIntents)))

/-! ## The lengths that have to fit -/

/-- The lengths of a state update fit their prefixes. -/
def StateUpdate.Writable : StateUpdate → Prop
  | fullReplace state => state.length < 2 ^ 32
  | dataPatchList patches => patches.length < 2 ^ 16 ∧ ∀ p ∈ patches, p.newBytes.length < 2 ^ 32

/-- The lengths of an outbound intent fit their prefixes. -/
structure OutboundIntent.Writable (intent : OutboundIntent) : Prop where
  extra_length : intent.extra.length < 2 ^ 16
  body_length : intent.body.length < 2 ^ 32

/-- The lengths of an event intent fit their prefixes. -/
structure EventIntent.Writable (intent : EventIntent) : Prop where
  eventName_length : (asBytes intent.eventName).length < 2 ^ 16
  topics_length : intent.topics.length < 2 ^ 16
  topic_length : ∀ topic ∈ intent.topics, topic.length < 2 ^ 16
  fieldsBinary_length : intent.fieldsBinary.length < 2 ^ 32

/-- The lengths of a message output fit their prefixes. -/
structure MessageOutput.Writable (output : MessageOutput) : Prop where
  stateUpdate_ok : ∀ update ∈ output.stateUpdate, update.Writable
  callbackResultBody_length : output.callbackResultBody.length < 2 ^ 32
  outboundIntents_length : output.outboundIntents.length < 2 ^ 32
  outboundIntents_ok : ∀ intent ∈ output.outboundIntents, intent.Writable
  callbackIntents_length : output.callbackIntents.length < 2 ^ 32
  eventIntents_length : output.eventIntents.length < 2 ^ 32
  eventIntents_ok : ∀ intent ∈ output.eventIntents, intent.Writable

/-- The lengths of a batch output fit their prefixes. -/
structure BatchOutput.Writable (output : BatchOutput) : Prop where
  stateUpdate_ok : output.stateUpdate.Writable
  statusCodes_length : output.statusCodes.length < 2 ^ 32
  outboundIntents_length : output.outboundIntents.length < 2 ^ 32
  outboundIntents_ok : ∀ intent ∈ output.outboundIntents, intent.Writable
  eventIntents_length : output.eventIntents.length < 2 ^ 32
  eventIntents_ok : ∀ intent ∈ output.eventIntents, intent.Writable

/-! ## What the writer functions write -/

section

variable {σ : Type} [Sink EncodeError σ]

/-- A `u16` length in front of what it counts. -/
theorem writes_lenU16 {n : ℕ} {g : WriteM EncodeError σ Unit} {P : Prop} {w : Bytes}
    (hg : Writes g P w) :
    Writes ((do
      let length ← lenU16 n
      write (toLe length)
      g) : WriteM EncodeError σ Unit) (n < 2 ^ 16 ∧ P) (leBytes 2 n ++ w) := by
  refine Writes.congr (Writes.lift (P := True ∧ P) (w := leBytes 2 n ++ w) ?_) ?_ rfl
  · intro length hlength
    obtain ⟨hn, rfl⟩ := lenU16_ok_iff.mp hlength
    rw [← toLe_ofNat (n := 2) hn]
    exact (writes_write _).bind hg
  · rw [exists_lenU16_ok, true_and]

/-- A `u32` length in front of what it counts. -/
theorem writes_lenU32 {n : ℕ} {g : WriteM EncodeError σ Unit} {P : Prop} {w : Bytes}
    (hg : Writes g P w) :
    Writes ((do
      let length ← lenU32 n
      write (toLe length)
      g) : WriteM EncodeError σ Unit) (n < 2 ^ 32 ∧ P) (leBytes 4 n ++ w) := by
  refine Writes.congr (Writes.lift (P := True ∧ P) (w := leBytes 4 n ++ w) ?_) ?_ rfl
  · intro length hlength
    obtain ⟨hn, rfl⟩ := lenU32_ok_iff.mp hlength
    rw [← toLe_ofNat (n := 4) hn]
    exact (writes_write _).bind hg
  · rw [exists_lenU32_ok, true_and]

/-- A field behind its length is written, -/
theorem writes_pushLengthPrefixedU32 (value : Bytes) :
    Writes (pushLengthPrefixedU32 value : WriteM EncodeError σ Unit) (value.length < 2 ^ 32)
      (lengthPrefixed 4 value) :=
  (writes_lenU32 (writes_write value)).congr (by simp) rfl

/-- a patch, -/
theorem writes_encodePatch (patch : StatePatch) :
    Writes (encodePatch patch : WriteM EncodeError σ Unit) (patch.newBytes.length < 2 ^ 32)
      patch.toBytes :=
  ((writes_write _).bind ((writes_write _).bind (writes_lenU32 (writes_write _)))).congr
    (by simp) rfl

/-- and a state update. -/
theorem writes_encodeStateUpdate (update : StateUpdate) :
    Writes (encodeStateUpdate update : WriteM EncodeError σ Unit) update.Writable
      update.toBytes := by
  cases update with
  | fullReplace state =>
      exact ((writes_write _).bind ((writes_write _).bind
        (writes_pushLengthPrefixedU32 state))).congr (by simp [StateUpdate.Writable]) rfl
  | dataPatchList patches =>
      exact ((writes_write _).bind ((writes_write _).bind (writes_lenU16 ((writes_write _).bind
        (Writes.forM writes_encodePatch patches))))).congr (by simp [StateUpdate.Writable]) rfl

/-- A message is written, -/
theorem writes_encodeOutboundIntent (intent : OutboundIntent) :
    Writes (encodeOutboundIntent intent : WriteM EncodeError σ Unit) intent.Writable
      intent.toBytes := by
  have hamount : ∀ amount : CurrencyAmount, Writes (encodeAmount amount : WriteM EncodeError σ Unit)
      True amount.toBytes := fun amount =>
    ((writes_write _).bind (writes_write _)).congr (by simp) rfl
  refine ((writes_write _).bind ((writes_write _).bind ((writes_write _).bind ((writes_write _).bind
    (writes_lenU16 ((Writes.forM hamount intent.extra).bind ((writes_write _).bind
      (writes_pushLengthPrefixedU32 intent.body)))))))).congr ?_ ?_
  · constructor
    · intro ⟨hextra, hbody⟩
      exact ⟨trivial, trivial, trivial, trivial, hextra, fun _ _ => trivial, trivial, hbody⟩
    · intro ⟨_, _, _, _, hextra, _, _, hbody⟩
      exact ⟨hextra, hbody⟩
  · simp [OutboundIntent.toBytes, counted]

/-- and all of them. -/
theorem writes_encodeOutboundIntents (intents : List OutboundIntent) :
    Writes (encodeOutboundIntents intents : WriteM EncodeError σ Unit)
      (intents.length < 2 ^ 32 ∧ ∀ intent ∈ intents, intent.Writable)
      (counted 4 OutboundIntent.toBytes intents) :=
  writes_lenU32 (Writes.forM writes_encodeOutboundIntent intents)

/-- An event is written, -/
theorem writes_encodeEventIntent (intent : EventIntent) :
    Writes (encodeEventIntent intent : WriteM EncodeError σ Unit) intent.Writable
      intent.toBytes := by
  have htopic : ∀ topic : Bytes, Writes (encodeTopic topic : WriteM EncodeError σ Unit)
      (topic.length < 2 ^ 16) (lengthPrefixed 2 topic) := fun topic =>
    (writes_lenU16 (writes_write topic)).congr (by simp) rfl
  refine ((writes_write _).bind ((writes_write _).bind ((writes_write _).bind
    (writes_lenU16 ((writes_write _).bind (writes_lenU16 ((Writes.forM htopic intent.topics).bind
      (writes_pushLengthPrefixedU32 intent.fieldsBinary)))))))).congr ?_ ?_
  · constructor
    · intro ⟨hname, htopics, htopic, hfields⟩
      exact ⟨trivial, trivial, trivial, hname, trivial, htopics, htopic, hfields⟩
    · intro ⟨_, _, _, hname, _, htopics, htopic, hfields⟩
      exact ⟨hname, htopics, htopic, hfields⟩
  · simp [EventIntent.toBytes, counted, lengthPrefixed]

/-- and all of them. -/
theorem writes_encodeEventIntents (intents : List EventIntent) :
    Writes (encodeEventIntents intents : WriteM EncodeError σ Unit)
      (intents.length < 2 ^ 32 ∧ ∀ intent ∈ intents, intent.Writable)
      (counted 4 EventIntent.toBytes intents) :=
  writes_lenU32 (Writes.forM writes_encodeEventIntent intents)

/-- The intents of callbacks are written, -/
theorem writes_encodeCallbackIntents (intents : List CallbackIntent) :
    Writes (encodeCallbackIntents intents : WriteM EncodeError σ Unit) (intents.length < 2 ^ 32)
      (counted 4 CallbackIntent.toBytes intents) := by
  have hcallback : ∀ callback : CallbackIntent,
      Writes (encodeCallbackIntent callback : WriteM EncodeError σ Unit) True callback.toBytes :=
    fun callback => ((writes_write _).bind (writes_write _)).congr (by simp) rfl
  exact (writes_lenU32 (Writes.forM hcallback intents)).congr (by simp) rfl

/-- the status codes -/
theorem writes_encodeStatusCodes (statusCodes : List U32) :
    Writes (encodeStatusCodes statusCodes : WriteM EncodeError σ Unit)
      (statusCodes.length < 2 ^ 32) (counted 4 toLe statusCodes) := by
  have hstatus : ∀ statusCode : U32,
      Writes (encodeStatusCode statusCode : WriteM EncodeError σ Unit) True (toLe statusCode) :=
    fun statusCode => writes_write _
  exact (writes_lenU32 (Writes.forM hstatus statusCodes)).congr (by simp) rfl

/-- and the intent of an upgrade. -/
theorem writes_encodeUpgradeIntent (upgrade : CodeUpgradeIntent) :
    Writes (encodeUpgradeIntent upgrade : WriteM EncodeError σ Unit) True upgrade.toBytes :=
  ((writes_write _).bind (writes_write _)).congr (by simp) rfl

/-- **The message writer** writes the encoding of a writable output and fails on any other. -/
theorem writes_writeMessageOutput (output : MessageOutput) :
    Writes (writeMessageOutput output : WriteM EncodeError σ Unit) output.Writable
      output.toBytes := by
  refine ((writes_write _).bind ((writes_write _).bind ((writes_write _).bind
    ((Writes.optional writes_encodeStateUpdate output.stateUpdate).bind
    ((writes_pushLengthPrefixedU32 output.callbackResultBody).bind
    ((writes_encodeOutboundIntents output.outboundIntents).bind
    ((writes_encodeCallbackIntents output.callbackIntents).bind
    ((writes_encodeEventIntents output.eventIntents).bind
    (Writes.optional writes_encodeUpgradeIntent output.codeUpgradeIntent))))))))).congr ?_ rfl
  constructor
  · intro ⟨hupdate, hbody, houtbounds, houtbound, hcallbacks, hevents, hevent⟩
    exact ⟨trivial, trivial, trivial, hupdate, hbody, ⟨houtbounds, houtbound⟩, hcallbacks,
      ⟨hevents, hevent⟩, fun _ _ => trivial⟩
  · intro ⟨_, _, _, hupdate, hbody, ⟨houtbounds, houtbound⟩, hcallbacks, ⟨hevents, hevent⟩, _⟩
    exact ⟨hupdate, hbody, houtbounds, houtbound, hcallbacks, hevents, hevent⟩

/-- **The batch writer** writes the encoding of a writable output and fails on any other. -/
theorem writes_writeBatchOutput (output : BatchOutput) :
    Writes (writeBatchOutput output : WriteM EncodeError σ Unit) output.Writable
      output.toBytes := by
  refine ((writes_write _).bind ((writes_encodeStateUpdate output.stateUpdate).bind
    ((writes_encodeStatusCodes output.statusCodes).bind
    ((writes_encodeOutboundIntents output.outboundIntents).bind
    (writes_encodeEventIntents output.eventIntents))))).congr ?_ rfl
  constructor
  · intro ⟨hupdate, hstatus, houtbounds, houtbound, hevents, hevent⟩
    exact ⟨trivial, hupdate, hstatus, ⟨houtbounds, houtbound⟩, hevents, hevent⟩
  · intro ⟨_, hupdate, hstatus, ⟨houtbounds, houtbound⟩, hevents, hevent⟩
    exact ⟨hupdate, hstatus, houtbounds, houtbound, hevents, hevent⟩

end

end AvmSdk.Sdk
