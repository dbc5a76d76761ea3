import AvmSdk.Sdk.Output.Fields

/-!
# The shape checks

The checks of `output.rs` that look at an output alone, and what each of them accepts.

* `StateUpdate.Shaped`, `OutboundIntent.Shaped`, `EventIntent.Shaped`, `ShapedCallbacks`: the parts
  of an output that pass their check, one named field a rule.
* `MessageOutput.Shaped`, `BatchOutput.Shaped`: the outputs that pass, with
  `validateMessageShape_ok_iff` and `validateBatchShape_ok_iff`.
-/

namespace AvmSdk.Sdk

open Wire

/-- Source: `output.rs` `validate_status_code` -/
def validateStatusCode (statusCode : U32) : Except EncodeError Unit :=
  failIf (1 ≤ statusCode.toNat ∧ statusCode.toNat < 1000) .invalidStatusCode

/-- The loop over patches, with the end of the patch before.
Source: `output.rs` `validate_state_update`, `for patch in patches` -/
def validatePatches : U32 → List StatePatch → Except EncodeError Unit
  | _, [] => .ok ()
  | previousEnd, patch :: patches => do
      let stop ← okOr (wordCheckedAdd patch.offset patch.oldLen) .invalidPatchOrder
      failIf (patch.offset < previousEnd) .invalidPatchOrder
      let _ ← lenU32 patch.newBytes.length
      validatePatches stop patches

/-- Source: `output.rs` `validate_state_update` -/
def validateStateUpdate : Option StateUpdate → Except EncodeError Unit
  | some (.dataPatchList patches) => do
      validatePatches 0 patches
      let _ ← lenU16 patches.length
      pure ()
  | _ => .ok ()

/-- Source: `output.rs` `validate_extra` -/
def validateExtra (extra : List CurrencyAmount) : Except EncodeError Unit := do
  let _ ← lenU16 extra.length
  failIf ((windows2 extra).any (fun pair => decide (pair.2.currencyId ≤ pair.1.currencyId)) = true)
    .invalidExtraCurrencies

/-- The body of the loop over outbound intents.
Source: `output.rs` `validate_outbound_intents`, `for intent in intents` -/
def validateOutboundIntent (intent : OutboundIntent) : Except EncodeError Unit := do
  failIf (intent.destination.dappId = zeros 32 ∨ intent.destination.accountId = zeros 32)
    .invalidIndex
  validateExtra intent.extra
  let _ ← lenU32 intent.body.length
  pure ()

/-- Source: `output.rs` `validate_outbound_intents` -/
def validateOutboundIntents (intents : List OutboundIntent) : Except EncodeError Unit := do
  let _ ← lenU32 intents.length
  intents.forM validateOutboundIntent

/-- The body of the loop over topics.
Source: `output.rs` `validate_event_intents`, `for topic in &intent.topics` -/
def validateTopic (topic : Bytes) : Except EncodeError Unit := do
  let _ ← lenU16 topic.length
  pure ()

/-- The loop over callback intents, with the outbound indices before.
Source: `output.rs` `validate_message_shape`, `for callback in &output.callback_intents` -/
def validateCallbacks [Target] (outbounds : ℕ) : List U32 → List CallbackIntent →
    Except EncodeError Unit
  | _, [] => .ok ()
  | seen, callback :: callbacks => do
      failIf (callback.handlerMethodId = 0 ∨
        (usizeTryFrom callback.outboundIndex).all (fun index => decide (index ≥ outbounds)) = true ∨
        callback.outboundIndex ∈ seen) .invalidCallback
      validateCallbacks outbounds (seen ++ [callback.outboundIndex]) callbacks

section

variable [Target]

/-- The body of the loop over event intents.
Source: `output.rs` `validate_event_intents`, `for intent in intents` -/
def validateEventIntent (intent : EventIntent) : Except EncodeError Unit := do
  let _ ← lenU16 (asBytes intent.eventName).length
  let _ ← lenU16 intent.topics.length
  intent.topics.forM validateTopic
  let _ ← lenU32 intent.fieldsBinary.length
  validateEventFieldList intent.fieldsBinary

/-- Source: `output.rs` `validate_event_intents` -/
def validateEventIntents (intents : List EventIntent) : Except EncodeError Unit := do
  let _ ← lenU32 intents.length
  intents.forM validateEventIntent

/-- The checks that depend on the status.
Source: `output.rs` `validate_message_shape`, `if output.status_code == 0` -/
def validateStatusEffects (output : MessageOutput) (requiredMode : Option StateOutputMode) :
    Except EncodeError Unit :=
  if output.statusCode = 0 then do
    let update ← okOr output.stateUpdate .missingStateUpdate
    failIf (requiredMode.any (fun mode => decide (mode ≠ update.mode)) = true) .stateModeMismatch
  else
    failIf (output.stateUpdate.isSome = true ∨ output.callbackResultBody ≠ [] ∨
      output.outboundIntents ≠ [] ∨ output.callbackIntents ≠ [] ∨ output.eventIntents ≠ [] ∨
      output.codeUpgradeIntent.isSome = true) .effectsOnFailure

/-- Source: `output.rs` `validate_message_shape` -/
def validateMessageShape (output : MessageOutput) (requiredMode : Option StateOutputMode) :
    Except EncodeError Unit := do
  validateStatusCode output.statusCode
  validateStatusEffects output requiredMode
  validateStateUpdate output.stateUpdate
  validateOutboundIntents output.outboundIntents
  validateEventIntents output.eventIntents
  validateCallbacks output.outboundIntents.length [] output.callbackIntents
  failIf (output.outboundIntents.any (fun intent => decide (intent.inputIndex ≠ 0)) = true ∨
    output.eventIntents.any (fun intent => decide (intent.inputIndex ≠ 0)) = true) .invalidIndex

/-- Source: `output.rs` `validate_batch_shape` -/
def validateBatchShape (output : BatchOutput) (requiredMode : Option StateOutputMode) :
    Except EncodeError Unit := do
  failIf (requiredMode.any (fun mode => decide (mode ≠ output.stateUpdate.mode)) = true)
    .stateModeMismatch
  validateStateUpdate (some output.stateUpdate)
  output.statusCodes.forM validateStatusCode
  validateOutboundIntents output.outboundIntents
  validateEventIntents output.eventIntents

end

/-! ## What passes -/

/-- The first byte of the old state behind a patch. -/
def StatePatch.stop (patch : StatePatch) : ℕ := patch.offset.toNat + patch.oldLen.toNat

/-- The patches of a state update: each inside the 32-bit range, and ascending without overlap. -/
structure ShapedPatches (patches : List StatePatch) : Prop where
  length : patches.length < 2 ^ 16
  stop_lt : ∀ p ∈ patches, p.stop < 2 ^ 32
  newBytes_length : ∀ p ∈ patches, p.newBytes.length < 2 ^ 32
  ordered : patches.Pairwise (fun p q => p.stop ≤ q.offset.toNat)

/-- The state updates that pass. -/
def StateUpdate.Shaped : StateUpdate → Prop
  | fullReplace _ => True
  | dataPatchList patches => ShapedPatches patches

/-- The outbound intents that pass. -/
structure OutboundIntent.Shaped (intent : OutboundIntent) : Prop where
  destination_ok : ¬ isZeroAddress intent.destination
  extra_length : intent.extra.length < 2 ^ 16
  extra_ascending : (intent.extra.map CurrencyAmount.currencyId).Pairwise (· < ·)
  body_length : intent.body.length < 2 ^ 32

/-- The event intents that pass. -/
structure EventIntent.Shaped (intent : EventIntent) : Prop where
  eventName_length : (asBytes intent.eventName).length < 2 ^ 16
  topics_length : intent.topics.length < 2 ^ 16
  topic_length : ∀ topic ∈ intent.topics, topic.length < 2 ^ 16
  fieldsBinary_length : intent.fieldsBinary.length < 2 ^ 32
  fieldsBinary_ok : CanonicalFields intent.fieldsBinary

/-- The callback intents that pass next to the given number of outbound intents: each names an
outbound intent, and no two the same. -/
structure ShapedCallbacks (outbounds : ℕ) (callbacks : List CallbackIntent) : Prop where
  handler_ne_zero : ∀ c ∈ callbacks, c.handlerMethodId ≠ 0
  outbound_lt : ∀ c ∈ callbacks, c.outboundIndex.toNat < outbounds
  outbound_nodup : (callbacks.map CallbackIntent.outboundIndex).Nodup

/-- A status that passes. -/
def ShapedStatus (statusCode : U32) : Prop := statusCode = 0 ∨ 1000 ≤ statusCode.toNat

/-- The message outputs that pass, under the mode that is required, if any. -/
structure MessageOutput.Shaped (output : MessageOutput) (requiredMode : Option StateOutputMode) :
    Prop where
  status_ok : ShapedStatus output.statusCode
  success : output.statusCode = 0 →
    ∃ update, output.stateUpdate = some update ∧ ∀ mode ∈ requiredMode, mode = update.mode
  failure : output.statusCode ≠ 0 → output = .failure output.statusCode
  stateUpdate_ok : ∀ update ∈ output.stateUpdate, update.Shaped
  outboundIntents_length : output.outboundIntents.length < 2 ^ 32
  outboundIntents_ok : ∀ intent ∈ output.outboundIntents, intent.Shaped
  eventIntents_length : output.eventIntents.length < 2 ^ 32
  eventIntents_ok : ∀ intent ∈ output.eventIntents, intent.Shaped
  callbackIntents_ok : ShapedCallbacks output.outboundIntents.length output.callbackIntents
  outboundIntents_index : ∀ intent ∈ output.outboundIntents, intent.inputIndex = 0
  eventIntents_index : ∀ intent ∈ output.eventIntents, intent.inputIndex = 0

/-- The batch outputs that pass, under the mode that is required, if any. -/
structure BatchOutput.Shaped (output : BatchOutput) (requiredMode : Option StateOutputMode) :
    Prop where
  mode_ok : ∀ mode ∈ requiredMode, mode = output.stateUpdate.mode
  stateUpdate_ok : output.stateUpdate.Shaped
  status_ok : ∀ statusCode ∈ output.statusCodes, ShapedStatus statusCode
  outboundIntents_length : output.outboundIntents.length < 2 ^ 32
  outboundIntents_ok : ∀ intent ∈ output.outboundIntents, intent.Shaped
  eventIntents_length : output.eventIntents.length < 2 ^ 32
  eventIntents_ok : ∀ intent ∈ output.eventIntents, intent.Shaped

/-! ## The checks decide what passes -/

/-- A status code is checked. -/
theorem validateStatusCode_ok_iff {statusCode : U32} {u : Unit} :
    validateStatusCode statusCode = .ok u ↔ ShapedStatus statusCode := by
  have hzero : statusCode = 0 ↔ statusCode.toNat = 0 := BitVec.toNat_inj.symm
  rw [validateStatusCode, failIf_ok_iff, ShapedStatus, hzero]
  omega

/-- The length checks, whose value is not used. -/
theorem lenU16_guard_ok_iff {n : ℕ} {f : Except EncodeError Unit} {u : Unit} :
    (do let _ ← lenU16 n; f) = .ok u ↔ n < 2 ^ 16 ∧ f = .ok u := by
  rw [bind_ok_iff, ← exists_lenU16_ok, exists_and_right]

/-- A length is checked in front of the rest. -/
theorem lenU32_guard_ok_iff {n : ℕ} {f : Except EncodeError Unit} {u : Unit} :
    (do let _ ← lenU32 n; f) = .ok u ↔ n < 2 ^ 32 ∧ f = .ok u := by
  rw [bind_ok_iff, ← exists_lenU32_ok, exists_and_right]

/-- A check before the rest. -/
theorem check_bind_ok_iff {ε : Type} {check f : Except ε Unit} {u : Unit} :
    (do check; f) = .ok u ↔ check = .ok () ∧ f = .ok u := by
  rw [bind_ok_iff]
  exact ⟨fun ⟨⟨⟩, h, hf⟩ => ⟨h, hf⟩, fun ⟨h, hf⟩ => ⟨(), h, hf⟩⟩

/-- The loop over patches accepts the patches that start behind the given end and are ordered. -/
theorem validatePatches_ok_iff {patches : List StatePatch} {previousEnd : U32} {u : Unit} :
    validatePatches previousEnd patches = .ok u ↔
      (∀ p ∈ patches, previousEnd.toNat ≤ p.offset.toNat) ∧ (∀ p ∈ patches, p.stop < 2 ^ 32) ∧
      (∀ p ∈ patches, p.newBytes.length < 2 ^ 32) ∧
      patches.Pairwise (fun p q => p.stop ≤ q.offset.toNat) := by
  induction patches generalizing previousEnd with
  | nil => simp [validatePatches]
  | cons patch patches ih =>
      have hlt : patch.offset < previousEnd ↔ patch.offset.toNat < previousEnd.toNat :=
        BitVec.lt_def
      rw [validatePatches, bind_ok_iff]
      simp only [okOr_ok_iff, wordCheckedAdd_eq_some, check_bind_ok_iff, failIf_ok_iff,
        lenU32_guard_ok_iff, ih, hlt, List.forall_mem_cons, List.pairwise_cons, StatePatch.stop]
      constructor
      · rintro ⟨stop, hstop, hprev, hnew, hstart, hstops, hnews, hpair⟩
        rw [hstop]
        -- a later patch starts behind this one, hence behind the previous end
        refine ⟨⟨Nat.le_of_not_lt hprev, fun p hp => ?_⟩, ⟨stop.isLt, hstops⟩, ⟨hnew, hnews⟩,
          hstart, hpair⟩
        have := hstart p hp
        omega
      · rintro ⟨⟨hprev, -⟩, ⟨hstop, hstops⟩, ⟨hnew, hnews⟩, hstart, hpair⟩
        have hnat : (BitVec.ofNat 32 (patch.offset.toNat + patch.oldLen.toNat)).toNat =
            patch.offset.toNat + patch.oldLen.toNat := by
          rw [BitVec.toNat_ofNat, Nat.mod_eq_of_lt hstop]
        refine ⟨BitVec.ofNat 32 (patch.offset.toNat + patch.oldLen.toNat), hnat.symm,
          Nat.not_lt.mpr hprev, hnew, ?_, hstops, hnews, hpair⟩
        rw [hnat]
        exact hstart

/-- The check of a state update, -/
theorem validateStateUpdate_ok_iff {update : Option StateUpdate} {u : Unit} :
    validateStateUpdate update = .ok u ↔ ∀ v ∈ update, v.Shaped := by
  rcases update with _ | ⟨state | patches⟩
  · simp [validateStateUpdate]
  · simp [validateStateUpdate, StateUpdate.Shaped]
  · rw [validateStateUpdate, check_bind_ok_iff, lenU16_guard_ok_iff, validatePatches_ok_iff]
    constructor
    · rintro ⟨⟨-, hstop, hnew, hpair⟩, hlen, -⟩ v ⟨⟩
      exact ⟨hlen, hstop, hnew, hpair⟩
    · intro h
      obtain ⟨hlen, hstop, hnew, hpair⟩ : ShapedPatches patches := h _ rfl
      exact ⟨⟨fun p _ => Nat.zero_le _, hstop, hnew, hpair⟩, hlen, rfl⟩

/-- of the currencies of a message, -/
theorem validateExtra_ok_iff {extra : List CurrencyAmount} {u : Unit} :
    validateExtra extra = .ok u ↔ extra.length < 2 ^ 16 ∧
      (extra.map CurrencyAmount.currencyId).Pairwise (· < ·) := by
  have hwindows := forall_mem_windows2 (fun x y => x.currencyId < y.currencyId) extra
  rw [validateExtra, lenU16_guard_ok_iff, failIf_ok_iff, List.any_eq_true,
    ← List.isChain_iff_pairwise, List.isChain_map, ← hwindows]
  simp only [decide_eq_true_eq, not_exists, not_and, BitVec.not_le]

/-- of the message -/
theorem validateOutboundIntent_ok_iff {intent : OutboundIntent} {u : Unit} :
    validateOutboundIntent intent = .ok u ↔ intent.Shaped := by
  rw [validateOutboundIntent, check_bind_ok_iff, check_bind_ok_iff, lenU32_guard_ok_iff,
    failIf_ok_iff, validateExtra_ok_iff]
  constructor
  · intro ⟨hdestination, ⟨hextra, hascending⟩, hbody, _⟩
    exact ⟨hdestination, hextra, hascending, hbody⟩
  · intro ⟨hdestination, hextra, hascending, hbody⟩
    exact ⟨hdestination, ⟨hextra, hascending⟩, hbody, rfl⟩

/-- and of all messages. -/
theorem validateOutboundIntents_ok_iff {intents : List OutboundIntent} {u : Unit} :
    validateOutboundIntents intents = .ok u ↔
      intents.length < 2 ^ 32 ∧ ∀ intent ∈ intents, intent.Shaped := by
  rw [validateOutboundIntents, lenU32_guard_ok_iff, forM_ok_iff]
  simp only [validateOutboundIntent_ok_iff]

section

variable [Target]

/-- The check of an event -/
theorem validateEventIntent_ok_iff {intent : EventIntent} {u : Unit} :
    validateEventIntent intent = .ok u ↔ intent.Shaped := by
  have htopic : ∀ topic, validateTopic topic = .ok () ↔ topic.length < 2 ^ 16 := by
    intro topic
    rw [validateTopic, lenU16_guard_ok_iff]
    exact and_iff_left rfl
  rw [validateEventIntent, lenU16_guard_ok_iff, lenU16_guard_ok_iff, check_bind_ok_iff,
    lenU32_guard_ok_iff, forM_ok_iff]
  simp only [htopic]
  have hmax := Target.u32_le_usizeMax
  constructor
  · intro ⟨hname, htopics, htopic, hlen, hfields⟩
    exact ⟨hname, htopics, htopic, hlen, (validateEventFieldList_ok_iff (by omega)).mp hfields⟩
  · intro ⟨hname, htopics, htopic, hlen, hfields⟩
    exact ⟨hname, htopics, htopic, hlen, (validateEventFieldList_ok_iff (by omega)).mpr hfields⟩

/-- and of all events. -/
theorem validateEventIntents_ok_iff {intents : List EventIntent} {u : Unit} :
    validateEventIntents intents = .ok u ↔
      intents.length < 2 ^ 32 ∧ ∀ intent ∈ intents, intent.Shaped := by
  rw [validateEventIntents, lenU32_guard_ok_iff, forM_ok_iff]
  simp only [validateEventIntent_ok_iff]

/-- The loop over callbacks accepts the callbacks whose outbound indices are new. -/
theorem validateCallbacks_ok_iff {outbounds : ℕ} {callbacks : List CallbackIntent}
    {seen : List U32} {u : Unit} :
    validateCallbacks outbounds seen callbacks = .ok u ↔ ShapedCallbacks outbounds callbacks ∧
      ∀ c ∈ callbacks, c.outboundIndex ∉ seen := by
  induction callbacks generalizing seen with
  | nil =>
      simp only [validateCallbacks, List.not_mem_nil, false_implies, implies_true, and_true,
        true_iff]
      exact ⟨by simp, by simp, by simp⟩
  | cons callback callbacks ih =>
      rw [validateCallbacks, check_bind_ok_iff, failIf_ok_iff, usizeTryFrom_eq, ih]
      simp only [Option.all_some, decide_eq_true_eq, not_or, List.mem_append, List.mem_singleton,
        List.forall_mem_cons]
      constructor
      · rintro ⟨⟨hhandler, hlt, hseen⟩, ⟨hhandlers, hlts, hnodup⟩, hnew⟩
        refine ⟨⟨?_, ?_, ?_⟩, hseen, fun c hc => (hnew c hc).1⟩
        · exact List.forall_mem_cons.mpr ⟨hhandler, hhandlers⟩
        · exact List.forall_mem_cons.mpr ⟨Nat.lt_of_not_le hlt, hlts⟩
        · rw [List.map_cons, List.nodup_cons]
          refine ⟨fun hmem => ?_, hnodup⟩
          obtain ⟨c, hc, heq⟩ := List.mem_map.mp hmem
          exact (hnew c hc).2 heq
      · rintro ⟨⟨hhandlers, hlts, hnodup⟩, hseen, hnew⟩
        rw [List.map_cons, List.nodup_cons] at hnodup
        rw [List.forall_mem_cons] at hhandlers hlts
        refine ⟨⟨hhandlers.1, Nat.not_le.mpr hlts.1, hseen⟩,
          ⟨hhandlers.2, hlts.2, hnodup.2⟩, fun c hc => ⟨hnew c hc, fun heq => ?_⟩⟩
        exact hnodup.1 (heq ▸ List.mem_map_of_mem hc)

omit [Target] in
/-- The mode test, `required_mode.is_some_and(|mode| mode != update.mode())`. -/
theorem not_mode_mismatch_iff {requiredMode : Option StateOutputMode} {m : StateOutputMode} :
    ¬ requiredMode.any (fun mode => decide (mode ≠ m)) = true ↔ ∀ mode ∈ requiredMode, mode = m := by
  cases requiredMode <;> simp

omit [Target] in
/-- What goes with a status code. -/
theorem validateStatusEffects_ok_iff {output : MessageOutput}
    {requiredMode : Option StateOutputMode} {u : Unit} :
    validateStatusEffects output requiredMode = .ok u ↔
      (output.statusCode = 0 →
        ∃ update, output.stateUpdate = some update ∧ ∀ mode ∈ requiredMode, mode = update.mode) ∧
      (output.statusCode ≠ 0 → output = .failure output.statusCode) := by
  unfold validateStatusEffects
  by_cases h : output.statusCode = 0
  · rw [if_pos h, bind_ok_iff]
    simp only [okOr_ok_iff, failIf_ok_iff, not_mode_mismatch_iff, h, forall_const, ne_eq,
      not_true_eq_false, false_implies, and_true]
  · rw [if_neg h, failIf_ok_iff]
    simp only [h, false_implies, true_and, ne_eq, not_false_eq_true, forall_const]
    rcases output with ⟨status, update, body, outbounds, callbacks, events, upgrade⟩
    simp only [MessageOutput.failure, MessageOutput.mk.injEq, true_and]
    simp [not_or]

/-- **The shape check of message outputs** accepts exactly the shaped ones. -/
theorem validateMessageShape_ok_iff {output : MessageOutput}
    {requiredMode : Option StateOutputMode} {u : Unit} :
    validateMessageShape output requiredMode = .ok u ↔ output.Shaped requiredMode := by
  rw [validateMessageShape]
  simp only [check_bind_ok_iff, validateStatusCode_ok_iff, validateStatusEffects_ok_iff,
    validateStateUpdate_ok_iff, validateOutboundIntents_ok_iff, validateEventIntents_ok_iff,
    validateCallbacks_ok_iff, failIf_ok_iff, not_or, List.any_eq_true, decide_eq_true_eq,
    not_exists, not_and, not_not]
  constructor
  · intro ⟨hstatus, ⟨hsuccess, hfailure⟩, hupdate, ⟨hout, houts⟩, ⟨hev, hevs⟩, ⟨hcb, _⟩, hoi, hei⟩
    exact ⟨hstatus, hsuccess, hfailure, hupdate, hout, houts, hev, hevs, hcb, hoi, hei⟩
  · intro ⟨hstatus, hsuccess, hfailure, hupdate, hout, houts, hev, hevs, hcb, hoi, hei⟩
    exact ⟨hstatus, ⟨hsuccess, hfailure⟩, hupdate, ⟨hout, houts⟩, ⟨hev, hevs⟩,
      ⟨hcb, fun _ _ => List.not_mem_nil⟩, hoi, hei⟩

/-- **The shape check of batch outputs** accepts exactly the shaped ones. -/
theorem validateBatchShape_ok_iff {output : BatchOutput} {requiredMode : Option StateOutputMode}
    {u : Unit} :
    validateBatchShape output requiredMode = .ok u ↔ output.Shaped requiredMode := by
  rw [validateBatchShape]
  simp only [check_bind_ok_iff, failIf_ok_iff, not_mode_mismatch_iff, validateStateUpdate_ok_iff,
    forM_ok_iff, validateStatusCode_ok_iff, validateOutboundIntents_ok_iff,
    validateEventIntents_ok_iff]
  constructor
  · intro ⟨hmode, hupdate, hstatus, ⟨hout, houts⟩, ⟨hev, hevs⟩⟩
    exact ⟨hmode, hupdate _ rfl, hstatus, hout, houts, hev, hevs⟩
  · intro ⟨hmode, hupdate, hstatus, hout, houts, hev, hevs⟩
    refine ⟨hmode, ?_, hstatus, ⟨hout, houts⟩, ⟨hev, hevs⟩⟩
    rintro _ ⟨⟩
    exact hupdate

end

end AvmSdk.Sdk
