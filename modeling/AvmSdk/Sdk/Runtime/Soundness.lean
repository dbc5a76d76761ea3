import AvmSdk.Sdk.Runtime.Dispatch

/-!
# What a returned block guarantees

The contract is arbitrary code, so whatever a host may rely on has to come from the gate.

* `MessageOutput.Guaranteed`: what holds of an output that was let through, and of the region with
  its encoding, one named field a rule.
* `dispatch_sound`: a non-zero result of `dispatch_message` or `dispatch_init` means a canonical
  input for this entry point, and a region with a guaranteed output.
* `dispatchMessageInner_of_accepted`: the gate is the only obstacle, next to the room in the arena.
-/

namespace AvmSdk.Sdk

open Wire Alloc

variable {N : ℕ}

/-- What a host may rely on, for an output and the region with its encoding. -/
structure MessageOutput.Guaranteed (output : MessageOutput) (input : MessageInput) (isInit : Bool)
    (region : Bytes) : Prop where
  status_ok : output.statusCode = 0 ∨ 1000 ≤ output.statusCode.toNat
  /-- A failure has no effects: its frame is the frame of the bare status. -/
  of_failure : output.statusCode ≠ 0 →
    region = (MessageOutput.failure output.statusCode).toBytes ∧ region.length = 25
  of_success : output.statusCode = 0 → ∃ update, output.stateUpdate = some update ∧
    update.mode = input.requiredStateOutputMode
  patches_ok : ∀ patches, output.stateUpdate = some (.dataPatchList patches) →
    patches.Pairwise (fun p q => p.stop ≤ q.offset.toNat) ∧ ∀ p ∈ patches, p.stop ≤ 2 ^ 32 - 1
  outbounds_ok : ∀ intent ∈ output.outboundIntents, ¬ isZeroAddress intent.destination ∧
    intent.inputIndex = 0 ∧ (intent.extra.map CurrencyAmount.currencyId).Pairwise (· < ·)
  events_ok : ∀ intent ∈ output.eventIntents,
    intent.inputIndex = 0 ∧ CanonicalFields intent.fieldsBinary
  callbacks_ok : ∀ c ∈ output.callbackIntents,
    c.handlerMethodId ≠ 0 ∧ c.outboundIndex.toNat < output.outboundIntents.length
  callbacks_nodup : (output.callbackIntents.map CallbackIntent.outboundIndex).Nodup
  callbackResultBody_ok : output.callbackResultBody ≠ [] →
    isInit = false ∧ input.message.hasCallbackRequest
  of_init : isInit = true → output.callbackIntents = [] ∧ output.codeUpgradeIntent = none
  upgrade_iff : isInit = false → output.statusCode = 0 →
    (output.codeUpgradeIntent.isSome ↔ input.message.methodId = codeUpgradeMethodId)

/-- What a host may rely on, for a call of an entry point that returned a block. -/
structure SoundReturn [Target] (contract : Contract) (isInit : Bool) (base : ℕ) (a : GuestArena N)
    (ptr len : U32) (value : U64) (a' : GuestArena N) (input : MessageInput) : Prop where
  read_eq : a.read base ptr len = some input.serialize
  decodes : decodeMessageInput input.serialize = .ok input
  wellFormed : input.WellFormed
  deploy_iff : input.message.isDeploy ↔ isInit = true
  encodes : encodeMessageOutput (contract.respond isInit input) =
    .ok (a'.blockBytes base ⟨(resultPtr value).toNat, (resultLen value).toNat⟩)
  guaranteed : (contract.respond isInit input).Guaranteed input isInit
    (a'.blockBytes base ⟨(resultPtr value).toNat, (resultLen value).toNat⟩)

/-- The frame of a bare status has 25 bytes. -/
theorem MessageOutput.length_failure (statusCode : U32) :
    (MessageOutput.failure statusCode).toBytes.length = 25 := by
  rw [MessageOutput.length_toBytes]
  rfl

/-- An output that answers the message and has the shape is guaranteed. -/
theorem MessageOutput.Shaped.guaranteed {output : MessageOutput} {input : MessageInput}
    {isInit : Bool} (hshaped : output.Shaped (some input.requiredStateOutputMode))
    (hanswers : output.Answers input.message isInit) :
    output.Guaranteed input isInit output.toBytes where
  status_ok := hshaped.status_ok
  of_failure hstatus := by
    rw [← hshaped.failure hstatus]
    refine ⟨rfl, ?_⟩
    rw [hshaped.failure hstatus]
    exact MessageOutput.length_failure _
  of_success hstatus := by
    obtain ⟨update, hupdate, hmode⟩ := hshaped.success hstatus
    exact ⟨update, hupdate, (hmode _ rfl).symm⟩
  patches_ok patches hupdate := by
    have hpatches : ShapedPatches patches := hshaped.stateUpdate_ok _ hupdate
    exact ⟨hpatches.ordered, fun p hp => Nat.le_pred_of_lt (hpatches.stop_lt p hp)⟩
  outbounds_ok intent hintent := by
    have hok := hshaped.outboundIntents_ok intent hintent
    exact ⟨hok.destination_ok, hshaped.outboundIntents_index intent hintent, hok.extra_ascending⟩
  events_ok intent hintent :=
    ⟨hshaped.eventIntents_index intent hintent,
      (hshaped.eventIntents_ok intent hintent).fieldsBinary_ok⟩
  callbacks_ok c hc :=
    ⟨hshaped.callbackIntents_ok.handler_ne_zero c hc, hshaped.callbackIntents_ok.outbound_lt c hc⟩
  callbacks_nodup := hshaped.callbackIntents_ok.outbound_nodup
  callbackResultBody_ok hbody := by
    cases isInit with
    | true => exact absurd (AnswersInit.callbackResultBody_eq hanswers) hbody
    | false => exact ⟨rfl, (AnswersCall.callbackResultBody_ok hanswers).resolve_right hbody⟩
  of_init hinit := by
    subst hinit
    exact ⟨AnswersInit.callbackIntents_eq hanswers, AnswersInit.upgrade_eq hanswers⟩
  upgrade_iff hinit hstatus := by
    subst hinit
    constructor
    · intro hsome
      by_contra hmethod
      rw [AnswersCall.upgrade_forbidden hanswers hmethod] at hsome
      cases hsome
    · exact AnswersCall.upgrade_required hanswers hstatus

section

variable [Target]

/-- The result of a message call that is not 0. -/
theorem dispatchMessageInner_sound {contract : Contract} {base : ℕ} {a : GuestArena N}
    {ptr len : U32} {isInit : Bool}
    (h : (dispatchMessageInner contract base a ptr len isInit).1 ≠ 0) :
    ∃ input, SoundReturn contract isInit base a ptr len
      (dispatchMessageInner contract base a ptr len isInit).1
      (dispatchMessageInner contract base a ptr len isInit).2 input := by
  rcases dispatchMessageInner_cases contract base a ptr len isInit
    with ⟨hzero, -⟩ | ⟨bytes, input, hread, hdecode, hdeploy, hanswers, hshaped, hwritable, p, l,
      hvalue, hdone⟩
  · exact absurd hzero h
  · -- the bytes that were read are a slice, so the frame codec applies to them
    have hlen : bytes.length ≤ usizeMax := by
      obtain ⟨-, -, -, -, hbytes⟩ := GuestArena.read_eq_some_iff.mp hread
      have hmax := Target.u32_le_usizeMax
      have hl := len.isLt
      rw [hbytes, GuestArena.blockBytes, List.extract_eq_take_drop, List.length_take]
      show min (ptr.toNat + len.toNat - base - (ptr.toNat - base)) _ ≤ usizeMax
      omega
    obtain ⟨hserialize, hinput⟩ := (decodeMessageInput_ok_iff ⟨bytes, hlen⟩ input).mp hdecode
    have hbytes : bytes = input.serialize := hserialize.symm
    subst hbytes
    refine ⟨input, hread, hdecode, hinput, by rw [← hdeploy, decide_eq_true_iff], ?_, ?_⟩
    · rw [hvalue, resultPtr_packResult, resultLen_packResult, hdone.bytes_eq]
      exact encodeMessageOutput_ok_iff.mpr ⟨hshaped.none, hwritable, rfl⟩
    · rw [hvalue, resultPtr_packResult, resultLen_packResult, hdone.bytes_eq]
      exact hshaped.guaranteed hanswers

/-- **The output gate is sound for every contract.** Whatever the contract and the arena, when
`dispatch_message` or `dispatch_init` returns a value other than 0, the input bytes are a canonical
`ACMI` frame whose deploy flag matches the entry point, and the returned region holds the `ACMO`
encoding of the contract's output, which is guaranteed. -/
theorem dispatch_sound (contract : Contract) (base : ℕ) (a : GuestArena N) (ptr len : U32) :
    ((dispatchMessage contract base a ptr len).1 ≠ 0 →
      ∃ input, SoundReturn contract false base a ptr len
        (dispatchMessage contract base a ptr len).1
        (dispatchMessage contract base a ptr len).2 input) ∧
    ((dispatchInit contract base a ptr len).1 ≠ 0 →
      ∃ input, SoundReturn contract true base a ptr len
        (dispatchInit contract base a ptr len).1
        (dispatchInit contract base a ptr len).2 input) :=
  ⟨dispatchMessageInner_sound, dispatchMessageInner_sound⟩

/-! ## The gate is the only obstacle -/

/-- An output that passes the gate is returned wherever there is room for its encoding. -/
theorem dispatchMessageInner_of_accepted {contract : Contract} {base : ℕ} {a a' : GuestArena N}
    {ptr len p l : U32} {isInit : Bool} {inputBytes : Bytes} {input : MessageInput}
    (hread : a.read base ptr len = some inputBytes)
    (hdecode : decodeMessageInput inputBytes = .ok input)
    (hdeploy : decide input.message.isDeploy = isInit)
    (hanswers : (contract.respond isInit input).Answers input.message isInit)
    (hshaped : (contract.respond isInit input).Shaped (some input.requiredStateOutputMode))
    (hlen : (contract.respond isInit input).toBytes.length = l.toNat)
    (hroom : a.tryAllocate base l = some (p, a')) :
    (dispatchMessageInner contract base a ptr len isInit).1 = packResult p l := by
  have hl := l.isLt
  have hgate : messageOutputLenFor input isInit (contract.respond isInit input) = .ok l.toNat :=
    messageOutputLenFor_ok_iff.mpr ⟨hanswers, hshaped, hlen.symm, le_usizeMax (by omega)⟩
  unfold dispatchMessageInner
  rw [hread]
  dsimp only
  rw [hdecode]
  dsimp only
  rw [if_neg (not_not.mpr hdeploy), hgate]
  exact GuestArena.writeOutput_of_valid (writes_writeMessageOutput _)
    (hshaped.writable (by omega)) hroom hlen

/-! ### A call that is answered -/

omit [Target] in
/-- The input of a call without a body. -/
def sampleInput : MessageInput := (sampleBatch 0 1).isolated (.internal (sampleCall 0 1))

omit [Target] in
/-- The length of the frame. -/
theorem length_sampleInput : sampleInput.serialize.length = 450 := by
  have hcall : sampleInput.frame.messageBytes.length = 176 := length_sampleCall 0 1
  rw [MessageInput.serialize, MessageFrame.length_toBytes, hcall]
  rfl

/-- The input is accepted. -/
theorem decodeMessageInput_sampleInput :
    decodeMessageInput sampleInput.serialize = .ok sampleInput := by
  have hlen : sampleInput.serialize.length ≤ usizeMax := by
    rw [length_sampleInput]
    exact le_usizeMax (by omega)
  obtain ⟨hframed, hcarries⟩ := carries_sampleBatch (Or.inl rfl) 1
  exact (decodeMessageInput_ok_iff ⟨sampleInput.serialize, hlen⟩ sampleInput).mpr
    ⟨rfl, BatchInput.isolated_wellFormed hframed hcarries List.mem_cons_self⟩

omit [Target] in
/-- A contract that replaces the state by an empty one. -/
def sampleContract : Contract :=
  ⟨fun _ => sampleOutput.isolated 0, fun _ => sampleOutput.isolated 0⟩

omit [Target] in
/-- An arena of 1024 bytes that holds the input. -/
def sampleArena : GuestArena 1024 where
  bytes := ⟨patch (zeros 1024).val 0 sampleInput.serialize, by
    rw [length_patch, (zeros 1024).property]
    rw [(zeros 1024).property, length_sampleInput]
    omega⟩
  next := 450
  allocationStarts := fun _ => 0
  allocationLengths := fun _ => 450
  allocationCount := 1
  allocationCount_le := by decide

/-- The arena at address 1 returns the input. -/
theorem read_sampleArena : sampleArena.read 1 1 450 = some sampleInput.serialize := by
  refine GuestArena.read_eq_some_iff.mpr ⟨by decide, by decide, by decide, by decide, ?_⟩
  have hextract : (patch (zeros 1024).val 0 sampleInput.serialize).extract 0
      (0 + sampleInput.serialize.length) = sampleInput.serialize := extract_patch (Nat.zero_le _)
  rw [length_sampleInput] at hextract
  exact hextract.symm

end

/-- The contract's output is returned behind the input, and what is returned is sound. -/
theorem dispatch_sound_sample :
    letI := Target.wasm32
    (dispatchMessage sampleContract 1 sampleArena 1 450).1 = packResult 451 33 ∧
    ∃ input, SoundReturn sampleContract false 1 sampleArena 1 450
      (dispatchMessage sampleContract 1 sampleArena 1 450).1
      (dispatchMessage sampleContract 1 sampleArena 1 450).2 input := by
  let _ := Target.wasm32
  have hvalue : (dispatchMessage sampleContract 1 sampleArena 1 450).1 = packResult 451 33 :=
    dispatchMessageInner_of_accepted read_sampleArena decodeMessageInput_sampleInput rfl
      (BatchOutput.isolated_answers_iff.mpr ⟨by decide, by decide⟩)
      (sampleOutput_shaped.isolated 0) (by decide)
      (GuestArena.tryAllocate_eq_some_iff.mpr ⟨1, 483, by decide, by decide, by decide, by decide,
        by decide, by decide, by decide, rfl⟩)
  refine ⟨hvalue, (dispatch_sound sampleContract 1 sampleArena 1 450).1 ?_⟩
  rw [hvalue]
  exact packResult_ne_zero (by decide)

end AvmSdk.Sdk
