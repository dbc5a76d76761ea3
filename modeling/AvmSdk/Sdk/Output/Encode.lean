import AvmSdk.Sdk.Output.Validate
import AvmSdk.Sdk.Output.Write

/-!
# The public serializer

`encode_message_output` and `encode_batch_output`: the shape check, then the writer functions on an
empty vector.

* `encodeMessageOutput_ok_iff`, `encodeBatchOutput_ok_iff`: what is accepted, and its encoding.
* `MessageOutput.selfDelimiting`, `BatchOutput.selfDelimiting`: an encoding determines the output
  and its own end, on the outputs whose lengths fit.
* `outputs_unambiguous`: accepted outputs with one encoding are equal, and no accepted encoding is
  a proper prefix of another.
-/

namespace AvmSdk.Sdk

open Wire

section

variable [Target]

/-- A writer run on a new vector. -/
def runVec (encode : WriteM EncodeError Bytes Unit) : Except EncodeError Bytes :=
  match encode [] with
  | (.ok (), bytes) => .ok bytes
  | (.error e, _) => .error e

/-- Source: `output.rs` `encode_message_output_inner` -/
def encodeMessageOutputInner (output : MessageOutput) (requiredMode : Option StateOutputMode) :
    Except EncodeError Bytes := do
  validateMessageShape output requiredMode
  runVec (writeMessageOutput output)

/-- Source: `output.rs` `encode_message_output` -/
def encodeMessageOutput (output : MessageOutput) : Except EncodeError Bytes :=
  encodeMessageOutputInner output none

/-- Source: `output.rs` `encode_batch_output_inner` -/
def encodeBatchOutputInner (output : BatchOutput) (requiredMode : Option StateOutputMode) :
    Except EncodeError Bytes := do
  validateBatchShape output requiredMode
  runVec (writeBatchOutput output)

/-- Source: `output.rs` `encode_batch_output` -/
def encodeBatchOutput (output : BatchOutput) : Except EncodeError Bytes :=
  encodeBatchOutputInner output none

/-! ## What is accepted -/

omit [Target] in
/-- A writer leaves its byte string in a new vector. -/
theorem runVec_ok_iff {f : WriteM EncodeError Bytes Unit} {P : Prop} {w bytes : Bytes}
    (hf : Writes f P w) : runVec f = .ok bytes ↔ P ∧ bytes = w := by
  unfold runVec
  by_cases hP : P
  · rw [hf.run_append hP, List.nil_append]
    exact ⟨fun h => ⟨hP, (Except.ok.inj h).symm⟩, fun h => congrArg Except.ok h.2.symm⟩
  · obtain ⟨e, s, h⟩ := hf.run_append_error hP []
    rw [h]
    exact ⟨nofun, fun h' => absurd h'.1 hP⟩

/-- **The message serializer** accepts the shaped outputs whose lengths fit. -/
theorem encodeMessageOutput_ok_iff {output : MessageOutput} {bytes : Bytes} :
    encodeMessageOutput output = .ok bytes ↔
      output.Shaped none ∧ output.Writable ∧ bytes = output.toBytes := by
  rw [encodeMessageOutput, encodeMessageOutputInner, bind_ok_iff]
  simp only [validateMessageShape_ok_iff, runVec_ok_iff (writes_writeMessageOutput output),
    exists_const]

/-- **The batch serializer** accepts the shaped outputs whose lengths fit. -/
theorem encodeBatchOutput_ok_iff {output : BatchOutput} {bytes : Bytes} :
    encodeBatchOutput output = .ok bytes ↔
      output.Shaped none ∧ output.Writable ∧ bytes = output.toBytes := by
  rw [encodeBatchOutput, encodeBatchOutputInner, bind_ok_iff]
  simp only [validateBatchShape_ok_iff, runVec_ok_iff (writes_writeBatchOutput output),
    exists_const]

end

/-! ## An encoding determines the output -/

/-- An entry shows where it ends, -/
theorem CurrencyAmount.selfDelimiting :
    SelfDelimiting (fun _ => True) CurrencyAmount.toBytes := CurrencyAmount.format.selfDelimiting

/-- and so does a patch. -/
theorem StatePatch.selfDelimiting :
    SelfDelimiting (fun p => p.newBytes.length < 2 ^ 32) StatePatch.toBytes := by
  intro ⟨offset, oldLen, newBytes⟩ ⟨offset', oldLen', newBytes'⟩ s t hp hq h
  simp only [StatePatch.toBytes, List.append_assoc] at h
  obtain ⟨rfl, h₁⟩ := toLe_append_inj (by norm_num) h
  obtain ⟨rfl, h₂⟩ := toLe_append_inj (by norm_num) h₁
  obtain ⟨rfl, h₃⟩ := lengthPrefixed_append_inj hp hq h₂
  exact ⟨rfl, h₃⟩

/-- The intent of a callback shows where it ends. -/
theorem CallbackIntent.selfDelimiting :
    SelfDelimiting (fun _ => True) CallbackIntent.toBytes := by
  intro ⟨outbound, handler⟩ ⟨outbound', handler'⟩ s t _ _ h
  simp only [CallbackIntent.toBytes, List.append_assoc] at h
  obtain ⟨rfl, h₁⟩ := toLe_append_inj (by norm_num) h
  obtain ⟨rfl, h₂⟩ := toLe_append_inj (by norm_num) h₁
  exact ⟨rfl, h₂⟩

/-- Arrays of one size determine their end. -/
theorem bytesN_append_inj {n : ℕ} {a b : BytesN n} {s t : Bytes}
    (h : a.val ++ s = b.val ++ t) : a = b ∧ s = t := by
  obtain ⟨hab, hst⟩ := append_inj_of_length (by simp) h
  exact ⟨Subtype.ext hab, hst⟩

/-- The intent of an upgrade shows where it ends. -/
theorem CodeUpgradeIntent.selfDelimiting :
    SelfDelimiting (fun _ => True) CodeUpgradeIntent.toBytes := by
  intro ⟨target, hash⟩ ⟨target', hash'⟩ s t _ _ h
  simp only [CodeUpgradeIntent.toBytes, List.append_assoc] at h
  obtain ⟨rfl, h₁⟩ := bytesN_append_inj h
  obtain ⟨rfl, h₂⟩ := bytesN_append_inj h₁
  exact ⟨rfl, h₂⟩

/-- The mode byte tells the two kinds of state update apart. -/
theorem StateUpdate.selfDelimiting : SelfDelimiting StateUpdate.Writable StateUpdate.toBytes := by
  intro u v s t hu hv h
  simp only [StateUpdate.toBytes, List.append_assoc] at h
  obtain ⟨hmode, h₁⟩ := append_inj_of_length (by rfl) h
  obtain ⟨-, h₂⟩ := append_inj_of_length (by rfl) h₁
  cases u with
  | fullReplace state =>
      cases v with
      | fullReplace state' =>
          obtain ⟨rfl, h₃⟩ := lengthPrefixed_append_inj hu hv h₂
          exact ⟨rfl, h₃⟩
      | dataPatchList patches' => cases hmode
  | dataPatchList patches =>
      cases v with
      | fullReplace state' => cases hmode
      | dataPatchList patches' =>
          simp only [StateUpdate.payload, List.append_assoc] at h₂
          obtain ⟨hlen, h₃⟩ := leBytes_append_inj hu.1 hv.1 h₂
          obtain ⟨-, h₄⟩ := append_inj_of_length (by rfl) h₃
          obtain ⟨rfl, h₅⟩ := StatePatch.selfDelimiting.flatMap _ _ s t hlen hu.2 hv.2 h₄
          exact ⟨rfl, h₅⟩

/-- A message that is sent shows where it ends. -/
theorem OutboundIntent.selfDelimiting :
    SelfDelimiting OutboundIntent.Writable OutboundIntent.toBytes := by
  intro ⟨index, ⟨dapp, account⟩, fee, extra, method, body⟩
    ⟨index', ⟨dapp', account'⟩, fee', extra', method', body'⟩ s t ha hb h
  simp only [OutboundIntent.toBytes, List.append_assoc] at h
  obtain ⟨rfl, h₁⟩ := toLe_append_inj (by norm_num) h
  obtain ⟨rfl, h₂⟩ := bytesN_append_inj h₁
  obtain ⟨rfl, h₃⟩ := bytesN_append_inj h₂
  obtain ⟨rfl, h₄⟩ := toLe_append_inj (by norm_num) h₃
  obtain ⟨rfl, h₅⟩ := CurrencyAmount.selfDelimiting.counted 2 _ _ _ _
    ⟨ha.extra_length, fun _ _ => trivial⟩ ⟨hb.extra_length, fun _ _ => trivial⟩ h₄
  obtain ⟨rfl, h₆⟩ := toLe_append_inj (by norm_num) h₅
  obtain ⟨rfl, h₇⟩ := lengthPrefixed_append_inj ha.body_length hb.body_length h₆
  exact ⟨rfl, h₇⟩

/-- The kind byte determines the kind. -/
theorem EventKind.toU8_inj {k l : EventKind} (h : k.toU8 = l.toU8) : k = l := by
  cases k <;> cases l <;> first | rfl | cases h

/-- An event shows where it ends. -/
theorem EventIntent.selfDelimiting :
    SelfDelimiting EventIntent.Writable EventIntent.toBytes := by
  intro ⟨index, kind, event, name, topics, fields⟩
    ⟨index', kind', event', name', topics', fields'⟩ s t ha hb h
  simp only [EventIntent.toBytes, List.append_assoc] at h
  obtain ⟨rfl, h₁⟩ := toLe_append_inj (by norm_num) h
  obtain ⟨hkind, h₂⟩ := append_inj_of_length (by rfl) h₁
  obtain rfl := EventKind.toU8_inj (List.singleton_inj.mp hkind)
  obtain ⟨rfl, h₃⟩ := toLe_append_inj (by norm_num) h₂
  obtain ⟨hname, h₄⟩ := lengthPrefixed_append_inj ha.eventName_length hb.eventName_length h₃
  obtain rfl := asBytes_inj hname
  obtain ⟨rfl, h₅⟩ := (selfDelimiting_lengthPrefixed 2).counted 2 _ _ _ _
    ⟨ha.topics_length, ha.topic_length⟩ ⟨hb.topics_length, hb.topic_length⟩ h₄
  obtain ⟨rfl, h₆⟩ := lengthPrefixed_append_inj ha.fieldsBinary_length hb.fieldsBinary_length h₅
  exact ⟨rfl, h₆⟩

/-- The flags byte tells which optional parts are there. -/
theorem MessageOutput.flags_inj {o o' : MessageOutput} (h : o.flags = o'.flags) :
    o.stateUpdate.isSome = o'.stateUpdate.isSome ∧
      o.codeUpgradeIntent.isSome = o'.codeUpgradeIntent.isSome := by
  unfold MessageOutput.flags at h
  generalize o.stateUpdate.isSome = a, o'.stateUpdate.isSome = a',
    o.codeUpgradeIntent.isSome = b, o'.codeUpgradeIntent.isSome = b' at h ⊢
  revert a a' b b'
  decide

/-- **An `ACMO` encoding determines the output and its own end.** -/
theorem MessageOutput.selfDelimiting :
    SelfDelimiting MessageOutput.Writable MessageOutput.toBytes := by
  intro o o' s t ha hb h
  simp only [MessageOutput.toBytes, List.append_assoc] at h
  obtain ⟨-, h₁⟩ := append_inj_of_length (by rfl) h
  obtain ⟨hstatus, h₂⟩ := toLe_append_inj (by norm_num) h₁
  obtain ⟨hflags, h₃⟩ := append_inj_of_length (by rfl) h₂
  obtain ⟨hupdate, hupgrade⟩ := MessageOutput.flags_inj (List.singleton_inj.mp hflags)
  obtain ⟨hupdate, h₄⟩ := StateUpdate.selfDelimiting.optional ha.stateUpdate_ok hb.stateUpdate_ok
    hupdate h₃
  obtain ⟨hbody, h₅⟩ := lengthPrefixed_append_inj ha.callbackResultBody_length
    hb.callbackResultBody_length h₄
  obtain ⟨houtbounds, h₆⟩ := OutboundIntent.selfDelimiting.counted 4 _ _ _ _
    ⟨ha.outboundIntents_length, ha.outboundIntents_ok⟩
    ⟨hb.outboundIntents_length, hb.outboundIntents_ok⟩ h₅
  obtain ⟨hcallbacks, h₇⟩ := CallbackIntent.selfDelimiting.counted 4 _ _ _ _
    ⟨ha.callbackIntents_length, fun _ _ => trivial⟩
    ⟨hb.callbackIntents_length, fun _ _ => trivial⟩ h₆
  obtain ⟨hevents, h₈⟩ := EventIntent.selfDelimiting.counted 4 _ _ _ _
    ⟨ha.eventIntents_length, ha.eventIntents_ok⟩ ⟨hb.eventIntents_length, hb.eventIntents_ok⟩ h₇
  obtain ⟨hupgrade, h₉⟩ := CodeUpgradeIntent.selfDelimiting.optional (fun _ _ => trivial)
    (fun _ _ => trivial) hupgrade h₈
  refine ⟨?_, h₉⟩
  rw [MessageOutput.mk.injEq]
  exact ⟨hstatus, hupdate, hbody, houtbounds, hcallbacks, hevents, hupgrade⟩

/-- **An `ACBO` encoding determines the output and its own end.** -/
theorem BatchOutput.selfDelimiting :
    SelfDelimiting BatchOutput.Writable BatchOutput.toBytes := by
  intro o o' s t ha hb h
  simp only [BatchOutput.toBytes, List.append_assoc] at h
  obtain ⟨-, h₁⟩ := append_inj_of_length (by rfl) h
  obtain ⟨hupdate, h₂⟩ := StateUpdate.selfDelimiting _ _ _ _ ha.stateUpdate_ok hb.stateUpdate_ok h₁
  obtain ⟨hstatus, h₃⟩ := (selfDelimiting_toLe (by norm_num)).counted 4 _ _ _ _
    ⟨ha.statusCodes_length, fun _ _ => trivial⟩ ⟨hb.statusCodes_length, fun _ _ => trivial⟩ h₂
  obtain ⟨houtbounds, h₄⟩ := OutboundIntent.selfDelimiting.counted 4 _ _ _ _
    ⟨ha.outboundIntents_length, ha.outboundIntents_ok⟩
    ⟨hb.outboundIntents_length, hb.outboundIntents_ok⟩ h₃
  obtain ⟨hevents, h₅⟩ := EventIntent.selfDelimiting.counted 4 _ _ _ _
    ⟨ha.eventIntents_length, ha.eventIntents_ok⟩ ⟨hb.eventIntents_length, hb.eventIntents_ok⟩ h₄
  refine ⟨?_, h₅⟩
  rw [BatchOutput.mk.injEq]
  exact ⟨hupdate, hstatus, houtbounds, hevents⟩

section

variable [Target]

/-- **Output encodings are unambiguous**: accepted outputs with one encoding are equal, and no
accepted encoding is a proper prefix of another of its kind. -/
theorem outputs_unambiguous :
    (∀ (o o' : MessageOutput) (b b' : Slice), encodeMessageOutput o = .ok b.bytes →
      encodeMessageOutput o' = .ok b'.bytes →
      (b.bytes = b'.bytes → o = o') ∧ (b.bytes <+: b'.bytes → b.bytes = b'.bytes)) ∧
    (∀ (o o' : BatchOutput) (b b' : Slice), encodeBatchOutput o = .ok b.bytes →
      encodeBatchOutput o' = .ok b'.bytes →
      (b.bytes = b'.bytes → o = o') ∧ (b.bytes <+: b'.bytes → b.bytes = b'.bytes)) := by
  constructor
  · intro o o' b b' h h'
    obtain ⟨-, hw, hb⟩ := encodeMessageOutput_ok_iff.mp h
    obtain ⟨-, hw', hb'⟩ := encodeMessageOutput_ok_iff.mp h'
    rw [hb, hb']
    exact ⟨MessageOutput.selfDelimiting.inj hw hw',
      MessageOutput.selfDelimiting.not_proper_prefix_of hw hw'⟩
  · intro o o' b b' h h'
    obtain ⟨-, hw, hb⟩ := encodeBatchOutput_ok_iff.mp h
    obtain ⟨-, hw', hb'⟩ := encodeBatchOutput_ok_iff.mp h'
    rw [hb, hb']
    exact ⟨BatchOutput.selfDelimiting.inj hw hw',
      BatchOutput.selfDelimiting.not_proper_prefix_of hw hw'⟩

end

end AvmSdk.Sdk
