import AvmSdk.Sdk.Input.Batch
import AvmSdk.Sdk.Output.Encode
import AvmSdk.Sdk.Output.Size

/-!
# The output gates

The checks through which an output has to go before it is written: the context checks, which compare
the output with the input it answers, then the shape checks and the size.

* `messageOutputLenFor_ok_iff`, `batchOutputLenFor_ok_iff`: what each gate accepts.
* `batchGate_implies_messageGate_iff`: the batch gate says nothing on the deploy flag and on the
  reserved upgrade method. A call of an accepted batch passes the isolated gate exactly when it is
  neither a deploy nor an upgrade call (and its isolated output has a size).
-/

namespace AvmSdk.Sdk

open Wire

/-- Source: `output.rs` `validate_message_context` -/
def validateMessageContext (input : MessageInput) (isInit : Bool) (output : MessageOutput) :
    Except EncodeError Unit :=
  if isInit then
    -- the remaining checks are skipped
    failIf (¬ input.message.isDeploy ∨ output.callbackResultBody ≠ [] ∨
      output.callbackIntents ≠ [] ∨ output.codeUpgradeIntent.isSome = true) .invalidCallback
  else do
    failIf input.message.isDeploy .invalidCallback
    failIf (¬ input.message.hasCallbackRequest ∧ output.callbackResultBody ≠ []) .invalidCallback
    failIf (output.statusCode = 0 ∧ input.message.methodId = codeUpgradeMethodId ∧
      output.codeUpgradeIntent.isNone = true) .upgradeRequired
    failIf (input.message.methodId ≠ codeUpgradeMethodId ∧ output.codeUpgradeIntent.isSome = true)
      .upgradeForbidden

section

variable [Target]

/-- Source: `output.rs` `validate_batch_effect_index` -/
def validateBatchEffectIndex (index : U32) (statuses : List U32) : Except EncodeError Unit := do
  let index ← okOr (usizeTryFrom index) .invalidIndex
  failIf (statuses[index]? ≠ some 0) .invalidIndex

/-- Source: `output.rs` `validate_batch_context` -/
def validateBatchContext (input : BatchInput) (output : BatchOutput) :
    Except EncodeError Unit := do
  failIf (usizeTryFrom input.messageCount ≠ some output.statusCodes.length) .invalidIndex
  output.outboundIntents.forM
    (fun intent => validateBatchEffectIndex intent.inputIndex output.statusCodes)
  output.eventIntents.forM
    (fun intent => validateBatchEffectIndex intent.inputIndex output.statusCodes)

/-- Source: `output.rs` `message_output_len_for` -/
def messageOutputLenFor (input : MessageInput) (isInit : Bool) (output : MessageOutput) :
    Except EncodeError ℕ := do
  validateMessageContext input isInit output
  validateMessageShape output (some input.requiredStateOutputMode)
  messageOutputLen output

/-- Source: `output.rs` `batch_output_len_for` -/
def batchOutputLenFor (input : BatchInput) (output : BatchOutput) : Except EncodeError ℕ := do
  validateBatchContext input output
  validateBatchShape output (some input.requiredStateOutputMode)
  batchOutputLen output

end

/-! ## What passes -/

/-- The outputs that may answer a message, outside `init`. -/
structure MessageOutput.AnswersCall (output : MessageOutput) (message : CanonicalMessage) :
    Prop where
  not_deploy : ¬ message.isDeploy
  callbackResultBody_ok : message.hasCallbackRequest ∨ output.callbackResultBody = []
  upgrade_required : output.statusCode = 0 → message.methodId = codeUpgradeMethodId →
    output.codeUpgradeIntent.isSome
  upgrade_forbidden : message.methodId ≠ codeUpgradeMethodId → output.codeUpgradeIntent = none

/-- The outputs that may answer a message in `init`. -/
structure MessageOutput.AnswersInit (output : MessageOutput) (message : CanonicalMessage) :
    Prop where
  deploy : message.isDeploy
  callbackResultBody_eq : output.callbackResultBody = []
  callbackIntents_eq : output.callbackIntents = []
  upgrade_eq : output.codeUpgradeIntent = none

/-- The outputs that may answer a message. -/
def MessageOutput.Answers (output : MessageOutput) (message : CanonicalMessage) (isInit : Bool) :
    Prop :=
  if isInit then output.AnswersInit message else output.AnswersCall message

/-- The check passes what answers the message. -/
theorem validateMessageContext_ok_iff {input : MessageInput} {isInit : Bool}
    {output : MessageOutput} {u : Unit} :
    validateMessageContext input isInit output = .ok u ↔ output.Answers input.message isInit := by
  unfold validateMessageContext MessageOutput.Answers
  cases isInit with
  | true =>
      rw [if_pos rfl, if_pos rfl, failIf_ok_iff]
      simp only [not_or, not_not, Option.not_isSome_iff_eq_none]
      exact ⟨fun ⟨hdeploy, hbody, hcallbacks, hupgrade⟩ => ⟨hdeploy, hbody, hcallbacks, hupgrade⟩,
        fun ⟨hdeploy, hbody, hcallbacks, hupgrade⟩ => ⟨hdeploy, hbody, hcallbacks, hupgrade⟩⟩
  | false =>
      rw [if_neg nofun, if_neg nofun]
      simp only [check_bind_ok_iff, failIf_ok_iff, not_and, not_not,
        Option.isNone_iff_eq_none, ← Option.ne_none_iff_isSome]
      constructor
      · intro ⟨hdeploy, hbody, hrequired, hforbidden⟩
        refine ⟨hdeploy, ?_, ?_, hforbidden⟩
        · by_cases h : input.message.hasCallbackRequest
          · exact Or.inl h
          · exact Or.inr (hbody h)
        · intro hstatus hmethod
          exact Option.ne_none_iff_isSome.mp (hrequired hstatus hmethod)
      · intro ⟨hdeploy, hbody, hrequired, hforbidden⟩
        refine ⟨hdeploy, fun h => hbody.resolve_left h, ?_, hforbidden⟩
        intro hstatus hmethod
        exact Option.ne_none_iff_isSome.mpr (hrequired hstatus hmethod)

/-- The outputs that may answer a batch: one status a message, and no effect of a failed one. -/
structure BatchOutput.Answers (output : BatchOutput) (input : BatchInput) : Prop where
  count_eq : input.messageCount.toNat = output.statusCodes.length
  outboundIntents_index : ∀ intent ∈ output.outboundIntents,
    output.statusCodes[intent.inputIndex.toNat]? = some 0
  eventIntents_index : ∀ intent ∈ output.eventIntents,
    output.statusCodes[intent.inputIndex.toNat]? = some 0

section

variable [Target]

/-- The check passes what answers the batch. -/
theorem validateBatchContext_ok_iff {input : BatchInput} {output : BatchOutput} {u : Unit} :
    validateBatchContext input output = .ok u ↔ output.Answers input := by
  have heffect : ∀ index : U32, validateBatchEffectIndex index output.statusCodes = .ok () ↔
      output.statusCodes[index.toNat]? = some 0 := by
    intro index
    rw [validateBatchEffectIndex, usizeTryFrom_eq, okOr_some, ok_bind, failIf_ok_iff, not_not]
  rw [validateBatchContext, check_bind_ok_iff, check_bind_ok_iff, failIf_ok_iff, forM_ok_iff,
    forM_ok_iff, not_not, usizeTryFrom_eq, Option.some.injEq]
  simp only [heffect]
  exact ⟨fun ⟨hcount, hout, hev⟩ => ⟨hcount, hout, hev⟩,
    fun ⟨hcount, hout, hev⟩ => ⟨hcount, hout, hev⟩⟩

/-- **The isolated gate** accepts the outputs that answer the message, have the shape under the
required mode, and whose encoding has a size; and it returns that size. -/
theorem messageOutputLenFor_ok_iff {input : MessageInput} {isInit : Bool} {output : MessageOutput}
    {n : ℕ} :
    messageOutputLenFor input isInit output = .ok n ↔ output.Answers input.message isInit ∧
      output.Shaped (some input.requiredStateOutputMode) ∧ n = output.toBytes.length ∧
      output.toBytes.length ≤ usizeMax := by
  rw [messageOutputLenFor, bind_ok_iff]
  simp only [validateMessageContext_ok_iff, bind_ok_iff, validateMessageShape_ok_iff, exists_const,
    measures_messageOutputLen output n]

/-- **The batch gate** accepts the outputs that answer the batch, have the shape under the required
mode, and whose encoding has a size; and it returns that size. -/
theorem batchOutputLenFor_ok_iff {input : BatchInput} {output : BatchOutput} {n : ℕ} :
    batchOutputLenFor input output = .ok n ↔ output.Answers input ∧
      output.Shaped (some input.requiredStateOutputMode) ∧ n = output.toBytes.length ∧
      output.toBytes.length ≤ usizeMax := by
  rw [batchOutputLenFor, bind_ok_iff]
  simp only [validateBatchContext_ok_iff, bind_ok_iff, validateBatchShape_ok_iff, exists_const,
    measures_batchOutputLen output n]

end

/-! ## A call of a batch, on its own -/

/-- The isolated input of one message of a batch. -/
def BatchInput.isolated (input : BatchInput) (message : CanonicalMessage) : MessageInput where
  context := input.context
  caller := message.sender
  destination := input.destination
  selectedCodeId := input.selectedCodeId
  requiredStateOutputMode := input.requiredStateOutputMode
  extra := input.extra
  state := input.state
  message := message
  internalEventResults := input.internalEventResults

/-- The outbound intents of message `k`, with the index that an isolated output has. -/
def BatchOutput.outboundIntentsOf (output : BatchOutput) (k : ℕ) : List OutboundIntent :=
  (output.outboundIntents.filter (fun intent => intent.inputIndex.toNat = k)).map
    (fun intent => { intent with inputIndex := 0 })

/-- The event intents of message `k`, with the index that an isolated output has. -/
def BatchOutput.eventIntentsOf (output : BatchOutput) (k : ℕ) : List EventIntent :=
  (output.eventIntents.filter (fun intent => intent.inputIndex.toNat = k)).map
    (fun intent => { intent with inputIndex := 0 })

/-- The isolated output of message `k` of a batch: success, the state update of the batch, and the
intents of the message. -/
def BatchOutput.isolated (output : BatchOutput) (k : ℕ) : MessageOutput where
  statusCode := 0
  stateUpdate := some output.stateUpdate
  callbackResultBody := []
  outboundIntents := output.outboundIntentsOf k
  callbackIntents := []
  eventIntents := output.eventIntentsOf k
  codeUpgradeIntent := none

/-- The isolated output of a call of a shaped batch output is shaped. -/
theorem BatchOutput.Shaped.isolated {output : BatchOutput} {requiredMode : Option StateOutputMode}
    (h : output.Shaped requiredMode) (k : ℕ) : (output.isolated k).Shaped requiredMode where
  status_ok := Or.inl rfl
  success _ := ⟨output.stateUpdate, rfl, h.mode_ok⟩
  failure hstatus := absurd rfl hstatus
  stateUpdate_ok := by
    rintro _ ⟨⟩
    exact h.stateUpdate_ok
  outboundIntents_length := by
    have hle := List.length_filter_le (fun i => decide (i.inputIndex.toNat = k))
      output.outboundIntents
    have hlen := h.outboundIntents_length
    show (output.outboundIntentsOf k).length < 2 ^ 32
    rw [BatchOutput.outboundIntentsOf, List.length_map]
    omega
  outboundIntents_ok := by
    intro _ hintent
    obtain ⟨intent, hmem, rfl⟩ := List.mem_map.mp hintent
    have hok := h.outboundIntents_ok intent (List.mem_filter.mp hmem).1
    exact ⟨hok.destination_ok, hok.extra_length, hok.extra_ascending, hok.body_length⟩
  eventIntents_length := by
    have hle := List.length_filter_le (fun i => decide (i.inputIndex.toNat = k))
      output.eventIntents
    have hlen := h.eventIntents_length
    show (output.eventIntentsOf k).length < 2 ^ 32
    rw [BatchOutput.eventIntentsOf, List.length_map]
    omega
  eventIntents_ok := by
    intro _ hintent
    obtain ⟨intent, hmem, rfl⟩ := List.mem_map.mp hintent
    have hok := h.eventIntents_ok intent (List.mem_filter.mp hmem).1
    exact ⟨hok.eventName_length, hok.topics_length, hok.topic_length, hok.fieldsBinary_length,
      hok.fieldsBinary_ok⟩
  callbackIntents_ok := ⟨nofun, nofun, List.nodup_nil⟩
  outboundIntents_index := by
    intro _ hintent
    obtain ⟨intent, -, rfl⟩ := List.mem_map.mp hintent
    rfl
  eventIntents_index := by
    intro _ hintent
    obtain ⟨intent, -, rfl⟩ := List.mem_map.mp hintent
    rfl

/-- The length of an isolated output. -/
theorem BatchOutput.length_toBytes_isolated (output : BatchOutput) (k : ℕ) :
    (output.isolated k).toBytes.length = 17 + output.stateUpdate.toBytes.length +
      (counted 4 OutboundIntent.toBytes (output.outboundIntentsOf k)).length +
      (counted 4 EventIntent.toBytes (output.eventIntentsOf k)).length := by
  rw [MessageOutput.length_toBytes]
  simp only [BatchOutput.isolated, Option.elim_some, List.length_nil, Option.isSome_none,
    Bool.false_eq_true, if_false]
  omega

/-- An isolated output answers a message exactly when this is no deploy and no upgrade call. -/
theorem BatchOutput.isolated_answers_iff {output : BatchOutput} {k : ℕ}
    {message : CanonicalMessage} :
    (output.isolated k).Answers message false ↔
      ¬ message.isDeploy ∧ message.methodId ≠ codeUpgradeMethodId := by
  show (output.isolated k).AnswersCall message ↔ _
  constructor
  · intro h
    refine ⟨h.not_deploy, fun hmethod => ?_⟩
    cases h.upgrade_required rfl hmethod
  · intro ⟨hdeploy, hmethod⟩
    exact ⟨hdeploy, Or.inr rfl, fun _ h => absurd h hmethod, fun _ => rfl⟩

section

variable [Target]

/-- The isolated input of a message of an accepted batch is the input of an `ACMI` frame. -/
theorem BatchInput.isolated_wellFormed {input : BatchInput} (hinput : input.Framed)
    {items : List CanonicalMessage} (hitems : input.Carries items) {message : CanonicalMessage}
    (hmem : message ∈ items) : (input.isolated message).WellFormed := by
  have hok := hitems.messages_ok message hmem
  have hlen : message.canonicalBytes.length < 2 ^ 32 := by
    have hmap : message.canonicalBytes ∈ items.map CanonicalMessage.canonicalBytes :=
      List.mem_map_of_mem hmem
    have hsub := (List.sublist_flatten_of_mem hmap).length_le
    have hregion := hinput.length_messageBytes_lt
    rw [hitems.messageBytes_eq] at hregion
    omega
  obtain ⟨hserialize, -, hmessage⟩ :=
    (decodeCanonicalMessage_ok_iff (.ofSection _ hlen) message).mp hok.decodes
  have hcanonical : message.canonicalBytes = message.serialize := hserialize.symm
  refine ⟨⟨hinput.extra_ok, hinput.state_length, ?_, hinput.internalEventResults_length⟩, hmessage,
    hcanonical, hok.destination_eq, rfl⟩
  show message.serialize.length < 2 ^ 32
  rwa [← hcanonical]

/-- **When the batch gate is as strong as the isolated gate.** Take a frame that is accepted, an
output that the batch gate accepts for it, and a message of the frame whose status is 0. The isolated
gate accepts the isolated output of this message exactly when the message is not a deploy, does not
call the upgrade method, and the isolated output has a size. -/
theorem batchGate_implies_messageGate_iff {b : Slice} {input : BatchInput} {output : BatchOutput}
    {n k : ℕ} {items : List CanonicalMessage} {message : CanonicalMessage}
    (_ : decodeBatchInput b.bytes = .ok input) (hgate : batchOutputLenFor input output = .ok n)
    (_ : Exhausts BatchMessageIter.next input.messages (items.map Except.ok))
    (_ : items[k]? = some message) (_ : output.statusCodes[k]? = some 0) :
    (∃ len, messageOutputLenFor (input.isolated message) false (output.isolated k) = .ok len) ↔
      ¬ message.isDeploy ∧ message.methodId ≠ codeUpgradeMethodId ∧
      17 + output.stateUpdate.toBytes.length +
        (counted 4 OutboundIntent.toBytes (output.outboundIntentsOf k)).length +
        (counted 4 EventIntent.toBytes (output.eventIntentsOf k)).length ≤ usizeMax := by
  obtain ⟨-, hshaped, -, -⟩ := batchOutputLenFor_ok_iff.mp hgate
  rw [← BatchOutput.length_toBytes_isolated]
  constructor
  · intro ⟨len, hlen⟩
    obtain ⟨hanswers, -, -, hsize⟩ := messageOutputLenFor_ok_iff.mp hlen
    obtain ⟨hdeploy, hmethod⟩ := BatchOutput.isolated_answers_iff.mp hanswers
    exact ⟨hdeploy, hmethod, hsize⟩
  · intro ⟨hdeploy, hmethod, hsize⟩
    exact ⟨_, messageOutputLenFor_ok_iff.mpr ⟨BatchOutput.isolated_answers_iff.mpr
      ⟨hdeploy, hmethod⟩, hshaped.isolated k, rfl, hsize⟩⟩

/-! ### A batch with one call -/

/-- The address whose bytes are all the same. -/
def sampleAddress (byte : U8) : AccountAddress :=
  ⟨⟨List.replicate 32 byte, List.length_replicate⟩, ⟨List.replicate 32 byte, List.length_replicate⟩⟩

/-- A call without a body from one account to another. -/
def sampleCall (flags : U8) (methodId : U64) : InternalMessage :=
  let call : InternalMessage :=
    { flags := flags
      methodId := methodId
      fuelFeeShells := 0
      createdLt := 0
      createdAt := 0
      source := sampleAddress 1
      destination := sampleAddress 2
      callback := none
      callbackHandlerMethodId := none
      eventReads := none
      extra := ⟨[], 0⟩
      body := []
      canonicalBytes := [] }
  { call with canonicalBytes := call.serialize }

/-- The batch of one call. -/
def sampleBatch (flags : U8) (methodId : U64) : BatchInput :=
  BatchInput.withMessages
    { context := ⟨0, 0, 0, zeros 32⟩
      destination := sampleAddress 2
      selectedCodeId := zeros 32
      requiredStateOutputMode := .fullReplace
      extra := ⟨[], 0⟩
      state := []
      offsets := []
      messageBytes := []
      messageCount := 0
      internalEventResults := [] }
    [.internal (sampleCall flags methodId)]

/-- A batch output that reports success and an empty state. -/
def sampleOutput : BatchOutput := ⟨.fullReplace [], [0], [], []⟩

omit [Target] in
/-- The message has no more than its header. -/
theorem length_sampleCall (flags : U8) (methodId : U64) :
    (sampleCall flags methodId).canonicalBytes.length = 176 := by
  simp [sampleCall, InternalMessage.serialize, InternalMessage.sections, InternalSections.toBytes,
    InternalHeader.length_toBytes]

omit [Target] in
/-- The frame has 354 bytes. -/
theorem length_sampleBatch (flags : U8) (methodId : U64) :
    (sampleBatch flags methodId).toBytes.length = 354 := by
  simp [BatchInput.toBytes, sampleBatch, BatchInput.withMessages, acbiMagic, offsetTable,
    blockEnds, CanonicalMessage.canonicalBytes, length_sampleCall]

/-- The frame of the batch of one call. -/
def sampleFrame (flags : U8) (methodId : U64) : Slice :=
  ⟨(sampleBatch flags methodId).toBytes, by
    rw [length_sampleBatch]
    exact le_usizeMax (by omega)⟩

/-- A call with no flags, or with the deploy flag alone, makes a well-formed batch. -/
theorem carries_sampleBatch {flags : U8} (hflags : flags = 0 ∨ flags = internalFlagDeploy)
    (methodId : U64) :
    (sampleBatch flags methodId).Framed ∧
      (sampleBatch flags methodId).Carries [.internal (sampleCall flags methodId)] := by
  have hextra : CurrencyAmounts.WellFormed ⟨[], 0⟩ := by
    have hitems : CurrencyAmounts.items ⟨[], 0⟩ = [] :=
      CurrencyAmounts.items_of_entries (Nat.zero_le _) rfl
    rw [CurrencyAmounts.wellFormed_iff, hitems]
    exact ⟨rfl, .nil⟩
  have hbits : internalFlagsOk flags ∧ flags &&& internalFlagCallback = 0 ∧
      flags &&& internalFlagCallbackRequest = 0 ∧ flags &&& internalFlagEventReads = 0 := by
    unfold internalFlagsOk
    rcases hflags with rfl | rfl <;> decide
  obtain ⟨hok, hcallback, hrequest, hreads⟩ := hbits
  have hsource : ¬ isZeroAddress (sampleAddress 1) := by decide
  have hdestination : ¬ isZeroAddress (sampleAddress 2) := by decide
  have hcall : (sampleCall flags methodId).WellFormed :=
    ⟨hok, hsource, hdestination, ⟨nofun, fun h => absurd hcallback h⟩,
      ⟨nofun, fun h => absurd hrequest h⟩, ⟨nofun, fun h => absurd hreads h⟩, nofun, nofun, nofun,
      hextra, Nat.two_pow_pos 32⟩
  have hmessages : ∀ m ∈ [CanonicalMessage.internal (sampleCall flags methodId)],
      m.WellFormed ∧ m.canonicalBytes = m.serialize ∧ m.destination = sampleAddress 2 ∧
        ¬ m.isCallback ∧ ¬ m.hasCallbackRequest :=
    List.forall_mem_singleton.mpr
      ⟨hcall, rfl, rfl, fun h => h hcallback, fun h => h hrequest⟩
  exact BatchInput.carries_withMessages (x := sampleBatch flags methodId) hextra
    (Nat.two_pow_pos 32) (Nat.two_pow_pos 32) hmessages
    (by simp [CanonicalMessage.canonicalBytes, length_sampleCall])

/-- The frame of such a batch is accepted. -/
theorem decodeBatchInput_sampleFrame {flags : U8} (hflags : flags = 0 ∨ flags = internalFlagDeploy)
    (methodId : U64) :
    decodeBatchInput (sampleFrame flags methodId).bytes = .ok (sampleBatch flags methodId) ∧
      Exhausts BatchMessageIter.next (sampleBatch flags methodId).messages
        ([.internal (sampleCall flags methodId)].map Except.ok) := by
  obtain ⟨hframed, hcarries⟩ := carries_sampleBatch hflags methodId
  exact ⟨(decodeBatchInput_ok_iff (sampleFrame flags methodId) _).mpr ⟨rfl, hframed, _, hcarries⟩,
    hcarries.exhausts hframed⟩

omit [Target] in
/-- The output is well shaped. -/
theorem sampleOutput_shaped : sampleOutput.Shaped (some .fullReplace) := by
  refine ⟨?_, trivial, ?_, by decide, nofun, by decide, nofun⟩
  · rintro mode ⟨⟩
    rfl
  · simp [sampleOutput, ShapedStatus]

/-- The batch gate accepts the output for every batch of one call. -/
theorem batchOutputLenFor_sample (flags : U8) (methodId : U64) :
    batchOutputLenFor (sampleBatch flags methodId) sampleOutput = .ok 28 :=
  batchOutputLenFor_ok_iff.mpr ⟨⟨rfl, nofun, nofun⟩, sampleOutput_shaped, by decide,
    le_usizeMax (by decide)⟩

end

/-- The batch gate is weaker than the isolated gate: of a batch of one call, a success that the
batch gate accepts is refused by the isolated gate when the call has the deploy flag, and when it
calls the upgrade method. -/
theorem batchGate_not_implies_messageGate :
    letI := Target.wasm32
    (let input := sampleBatch internalFlagDeploy 1
      let call := CanonicalMessage.internal (sampleCall internalFlagDeploy 1)
      decodeBatchInput (sampleFrame internalFlagDeploy 1).bytes = .ok input ∧
      Exhausts BatchMessageIter.next input.messages [.ok call] ∧
      batchOutputLenFor input sampleOutput = .ok 28 ∧ sampleOutput.statusCodes[0]? = some 0 ∧
      messageOutputLenFor (input.isolated call) false (sampleOutput.isolated 0) =
        .error .invalidCallback) ∧
    (let input := sampleBatch 0 codeUpgradeMethodId
      let call := CanonicalMessage.internal (sampleCall 0 codeUpgradeMethodId)
      decodeBatchInput (sampleFrame 0 codeUpgradeMethodId).bytes = .ok input ∧
      Exhausts BatchMessageIter.next input.messages [.ok call] ∧
      batchOutputLenFor input sampleOutput = .ok 28 ∧ sampleOutput.statusCodes[0]? = some 0 ∧
      messageOutputLenFor (input.isolated call) false (sampleOutput.isolated 0) =
        .error .upgradeRequired) := by
  let _ := Target.wasm32
  obtain ⟨hdeploy, hdeploys⟩ := decodeBatchInput_sampleFrame (Or.inr rfl) 1
  obtain ⟨hupgrade, hupgrades⟩ := decodeBatchInput_sampleFrame (Or.inl rfl) codeUpgradeMethodId
  exact ⟨⟨hdeploy, hdeploys, batchOutputLenFor_sample _ _, rfl, rfl⟩,
    ⟨hupgrade, hupgrades, batchOutputLenFor_sample _ _, rfl, rfl⟩⟩

/-- The condition holds of a plain call, whose isolated output is accepted. -/
theorem batchGate_implies_messageGate_sample :
    letI := Target.wasm32
    (∃ len, messageOutputLenFor
        ((sampleBatch 0 1).isolated (.internal (sampleCall 0 1))) false
        (sampleOutput.isolated 0) = .ok len) ↔
      ¬ (CanonicalMessage.internal (sampleCall 0 1)).isDeploy ∧
      (CanonicalMessage.internal (sampleCall 0 1)).methodId ≠ codeUpgradeMethodId ∧
      17 + sampleOutput.stateUpdate.toBytes.length +
        (counted 4 OutboundIntent.toBytes (sampleOutput.outboundIntentsOf 0)).length +
        (counted 4 EventIntent.toBytes (sampleOutput.eventIntentsOf 0)).length ≤ usizeMax := by
  let _ := Target.wasm32
  obtain ⟨hdecode, hitems⟩ := decodeBatchInput_sampleFrame (Or.inl rfl) 1
  exact batchGate_implies_messageGate_iff hdecode (batchOutputLenFor_sample 0 1) hitems rfl rfl

end AvmSdk.Sdk
