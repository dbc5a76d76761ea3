import AvmSdk.Sdk.Output.Write
import AvmSdk.Wire.Measure

/-!
# Output sizes

The functions of `output.rs` that compute the size of an output before it is written.

* `measures_messageOutputLen`, `measures_batchOutputLen`: they compute the length of the encoding,
  and fail exactly when that length is not a `usize`.
* `MessageOutput.length_toBytes`, `BatchOutput.length_toBytes`: the length of the encoding, part by
  part.
-/

namespace AvmSdk.Sdk

open Wire

variable [Target]

/-- Source: `output.rs` `checked_len` -/
def checkedLen (parts : List ℕ) : Except EncodeError ℕ :=
  parts.foldlM (fun total part => okOr (checkedAdd total part) .lengthOverflow) 0

/-- Source: `output.rs` `repeated_len` -/
def repeatedLen (count width : ℕ) : Except EncodeError ℕ :=
  okOr (checkedMul count width) .lengthOverflow

/-- Source: `output.rs` `state_update_len` -/
def stateUpdateLen : StateUpdate → Except EncodeError ℕ
  | .fullReplace state => checkedLen [8, state.length]
  | .dataPatchList patches =>
      patches.foldlM (fun total patch => checkedLen [total, 12, patch.newBytes.length]) 8

/-- Source: `output.rs` `outbound_intents_len` -/
def outboundIntentsLen (intents : List OutboundIntent) : Except EncodeError ℕ :=
  intents.foldlM (fun total intent => do
    let extra ← repeatedLen intent.extra.length 20
    checkedLen [total, 98, extra, intent.body.length]) 4

/-- Source: `output.rs` `event_intents_len` -/
def eventIntentsLen (intents : List EventIntent) : Except EncodeError ℕ :=
  intents.foldlM (fun total intent => do
    let topics ← intent.topics.foldlM (fun total topic => checkedLen [total, 2, topic.length]) 0
    checkedLen [total, 21, (asBytes intent.eventName).length, topics,
      intent.fieldsBinary.length]) 4

/-- The size of a part that may be absent, `.map(..).transpose()?.unwrap_or(0)`. -/
def optionalLen {α : Type} (len : α → Except EncodeError ℕ) (part : Option α) :
    Except EncodeError ℕ :=
  match part with
  | some part => len part
  | none => .ok 0

/-- Source: `output.rs` `message_output_len` -/
def messageOutputLen (output : MessageOutput) : Except EncodeError ℕ := do
  let stateUpdate ← optionalLen stateUpdateLen output.stateUpdate
  let outboundIntents ← outboundIntentsLen output.outboundIntents
  let callbackIntents ← repeatedLen output.callbackIntents.length 12
  let eventIntents ← eventIntentsLen output.eventIntents
  checkedLen [9, stateUpdate, 4, output.callbackResultBody.length, outboundIntents, 4,
    callbackIntents, eventIntents, if output.codeUpgradeIntent.isSome then 64 else 0]

/-- Source: `output.rs` `batch_output_len` -/
def batchOutputLen (output : BatchOutput) : Except EncodeError ℕ := do
  let stateUpdate ← stateUpdateLen output.stateUpdate
  let statusCodes ← repeatedLen output.statusCodes.length 4
  let outboundIntents ← outboundIntentsLen output.outboundIntents
  let eventIntents ← eventIntentsLen output.eventIntents
  checkedLen [4, stateUpdate, 4, statusCodes, outboundIntents, eventIntents]

/-! ## The length of an encoding -/

section

omit [Target]

/-- The length of a patch. -/
theorem StatePatch.length_toBytes (patch : StatePatch) :
    patch.toBytes.length = 12 + patch.newBytes.length := by
  simp only [StatePatch.toBytes, List.length_append, length_toLe, length_lengthPrefixed]
  omega

/-- The length of a state update. -/
theorem StateUpdate.length_toBytes (update : StateUpdate) :
    update.toBytes.length = 4 + update.payload.length := by
  simp only [StateUpdate.toBytes, List.length_append, length_bytesN, List.length_singleton]
  omega

/-- The length of a counted list. -/
theorem length_counted {α : Type} (n : ℕ) (enc : α → Bytes) (as : List α) :
    (counted n enc as).length = n + (as.map (fun a => (enc a).length)).sum := by
  rw [counted, List.length_append, length_leBytes, List.length_flatMap]

/-- The length of a counted list of records of one width. -/
theorem length_counted_of_width {α : Type} (n : ℕ) {enc : α → Bytes} {width : ℕ}
    (h : ∀ a, (enc a).length = width) (as : List α) :
    (counted n enc as).length = n + as.length * width := by
  rw [length_counted, List.map_congr_left (fun a _ => h a), List.map_const', List.sum_replicate_nat]

/-- The length of a message that is sent, -/
theorem OutboundIntent.length_toBytes (intent : OutboundIntent) :
    intent.toBytes.length = 98 + intent.extra.length * 20 + intent.body.length := by
  simp only [OutboundIntent.toBytes, List.length_append, length_toLe, length_bytesN,
    length_counted_of_width 2 CurrencyAmount.length_toBytes, length_lengthPrefixed]
  omega

/-- of an event, -/
theorem EventIntent.length_toBytes (intent : EventIntent) :
    intent.toBytes.length = 21 + (asBytes intent.eventName).length +
      (intent.topics.map (fun topic => 2 + topic.length)).sum + intent.fieldsBinary.length := by
  simp only [EventIntent.toBytes, List.length_append, length_toLe, List.length_singleton,
    length_counted, length_lengthPrefixed]
  omega

/-- of the intent of a callback -/
@[simp] theorem CallbackIntent.length_toBytes (callback : CallbackIntent) :
    callback.toBytes.length = 12 := by
  simp [CallbackIntent.toBytes]

/-- and of an upgrade. -/
@[simp] theorem CodeUpgradeIntent.length_toBytes (upgrade : CodeUpgradeIntent) :
    upgrade.toBytes.length = 64 := by
  simp [CodeUpgradeIntent.toBytes]

/-- The length of an `ACMO` encoding, part by part. -/
theorem MessageOutput.length_toBytes (output : MessageOutput) :
    output.toBytes.length = 9 + output.stateUpdate.elim 0 (fun u => u.toBytes.length) + 4 +
      output.callbackResultBody.length +
      (counted 4 OutboundIntent.toBytes output.outboundIntents).length + 4 +
      output.callbackIntents.length * 12 +
      (counted 4 EventIntent.toBytes output.eventIntents).length +
      (if output.codeUpgradeIntent.isSome then 64 else 0) := by
  have hupdate : (output.stateUpdate.elim [] StateUpdate.toBytes).length =
      output.stateUpdate.elim 0 (fun u => u.toBytes.length) := by
    cases output.stateUpdate <;> rfl
  have hupgrade : (output.codeUpgradeIntent.elim [] CodeUpgradeIntent.toBytes).length =
      if output.codeUpgradeIntent.isSome then 64 else 0 := by
    cases output.codeUpgradeIntent <;> simp
  simp only [MessageOutput.toBytes, acmoMagic, List.length_append, length_toLe, List.length_cons,
    List.length_nil, length_lengthPrefixed, hupdate, hupgrade,
    length_counted_of_width 4 CallbackIntent.length_toBytes]
  omega

/-- The length of an `ACBO` encoding, part by part. -/
theorem BatchOutput.length_toBytes (output : BatchOutput) :
    output.toBytes.length = 4 + output.stateUpdate.toBytes.length + 4 +
      output.statusCodes.length * 4 +
      (counted 4 OutboundIntent.toBytes output.outboundIntents).length +
      (counted 4 EventIntent.toBytes output.eventIntents).length := by
  have hstatus : ∀ statusCode : U32, (toLe statusCode).length = 4 := fun _ => by simp
  simp only [BatchOutput.toBytes, acboMagic, List.length_append, List.length_cons, List.length_nil,
    length_counted_of_width 4 hstatus]
  omega

end

/-! ## The computed sizes are the lengths -/

/-- A checked sum measures the sum, -/
theorem measures_checkedLen (parts : List ℕ) : Measures usizeMax (checkedLen parts) parts.sum := by
  have hstep : ∀ total part, Measures usizeMax
      (okOr (checkedAdd total part) EncodeError.lengthOverflow) (total + part) := by
    intro total part n
    rw [okOr_ok_iff, checkedAdd_eq_some, eq_comm (b := n)]
    exact and_comm
  exact (Measures.foldlM hstep parts (Nat.zero_le _)).congr (by simp)

/-- a checked product the product. -/
theorem measures_repeatedLen (count width : ℕ) :
    Measures usizeMax (repeatedLen count width) (count * width) := by
  intro n
  rw [repeatedLen, okOr_ok_iff, checkedMul_eq_some, eq_comm (b := n)]
  exact and_comm

/-- A literal summand is a `usize`. -/
theorem le_usizeMax {n : ℕ} (h : n ≤ 2 ^ 32 - 1) : n ≤ usizeMax := h.trans Target.u32_le_usizeMax

/-- The length of a state update is measured, -/
theorem measures_stateUpdateLen (update : StateUpdate) :
    Measures usizeMax (stateUpdateLen update) update.toBytes.length := by
  cases update with
  | fullReplace state =>
      refine (measures_checkedLen [8, state.length]).congr ?_
      simp [StateUpdate.length_toBytes, StateUpdate.payload]
      omega
  | dataPatchList patches =>
      have hstep : ∀ total (patch : StatePatch),
          Measures usizeMax (checkedLen [total, 12, patch.newBytes.length])
            (total + patch.toBytes.length) := fun total patch =>
        (measures_checkedLen _).congr (by simp [StatePatch.length_toBytes])
      refine (Measures.foldlM hstep patches (le_usizeMax (by omega))).congr ?_
      simp [StateUpdate.length_toBytes, StateUpdate.payload, List.length_flatMap]
      omega

/-- that of the messages -/
theorem measures_outboundIntentsLen (intents : List OutboundIntent) :
    Measures usizeMax (outboundIntentsLen intents)
      (counted 4 OutboundIntent.toBytes intents).length := by
  refine (Measures.foldlM (fun total intent => ?_) intents (le_usizeMax (by omega))).congr
    (length_counted 4 _ intents)
  refine (measures_repeatedLen intent.extra.length 20).bind
    ((measures_checkedLen _).congr ?_) ?_
  · simp [OutboundIntent.length_toBytes]
    omega
  · rw [OutboundIntent.length_toBytes]
    omega

/-- and that of the events. -/
theorem measures_eventIntentsLen (intents : List EventIntent) :
    Measures usizeMax (eventIntentsLen intents) (counted 4 EventIntent.toBytes intents).length := by
  refine (Measures.foldlM (fun total intent => ?_) intents (le_usizeMax (by omega))).congr
    (length_counted 4 _ intents)
  have htopic : ∀ total (topic : Bytes),
      Measures usizeMax (checkedLen [total, 2, topic.length]) (total + (2 + topic.length)) :=
    fun total topic => (measures_checkedLen _).congr (by simp)
  refine (Measures.foldlM htopic intent.topics (Nat.zero_le _)).bind
    ((measures_checkedLen _).congr ?_) ?_
  · simp [EventIntent.length_toBytes]
    omega
  · rw [EventIntent.length_toBytes]
    omega

/-- **The size of a message output** is the length of its encoding. -/
theorem measures_messageOutputLen (output : MessageOutput) :
    Measures usizeMax (messageOutputLen output) output.toBytes.length := by
  have hlen := output.length_toBytes
  refine (Measures.optional measures_stateUpdateLen output.stateUpdate).bind
    ((measures_outboundIntentsLen output.outboundIntents).bind
    ((measures_repeatedLen output.callbackIntents.length 12).bind
    ((measures_eventIntentsLen output.eventIntents).bind
    ((measures_checkedLen _).congr ?_) ?_) ?_) ?_) ?_
  · rw [hlen]
    simp only [List.sum_cons, List.sum_nil]
    omega
  all_goals omega

/-- **The size of a batch output** is the length of its encoding. -/
theorem measures_batchOutputLen (output : BatchOutput) :
    Measures usizeMax (batchOutputLen output) output.toBytes.length := by
  have hlen := output.length_toBytes
  refine (measures_stateUpdateLen output.stateUpdate).bind
    ((measures_repeatedLen output.statusCodes.length 4).bind
    ((measures_outboundIntentsLen output.outboundIntents).bind
    ((measures_eventIntentsLen output.eventIntents).bind
    ((measures_checkedLen _).congr ?_) ?_) ?_) ?_) ?_
  · rw [hlen]
    simp only [List.sum_cons, List.sum_nil]
    omega
  all_goals omega

end AvmSdk.Sdk
