import AvmSdk.Contracts.Audit.Gate
import AvmSdk.Contracts.Forward.Record

/-!
# A counter that is patched

The contract `contract-batch-patch`: its state is a large block with one counter, and it takes one
message at a time, in batches that ask for patches only.

* `validCounter_iff`: the states that hold a counter.
* `Counts`, `nextCounter_iff`: the batches that count, by what they carry.
* `Told`, `told_of_step`: what the host gets back for a batch; a batch that does not ask for patches is
  lost at the gate.
* `told_of_run`: over every run of an account, the state is the number of the batches that counted, up
  to the largest number of 64 bits, and every answer follows from it.
-/

namespace AvmSdk.BatchPatch

open Wire Sdk Contracts Trace

/-- Source: `STATE_PAYLOAD_BYTES` -/
abbrev statePayloadBytes : ℕ := 65536

/-- Source: `STATE_BYTES` -/
abbrev stateBytes : ℕ := 65540

/-- Source: `COUNTER_OFFSET` -/
abbrev counterOffset : ℕ := 4

/-- Source: `COUNTER_BYTES` -/
abbrev counterBytes : ℕ := 8

/-- Source: `INTERNAL_PATCH_BODY` -/
def internalPatchBody : Bytes := List.replicate 16 0x42

/-- Source: `VALUE_ECC0` -/
def valueEcc0 : U128 := 37

/-- Source: `EXTRA_CURRENCY_ID` -/
def extraCurrencyId : U32 := 7

/-- Source: `EXTRA_CURRENCY_AMOUNT` -/
def extraCurrencyAmount : U128 := 11

/-- Source: `BATCH_FUEL_FEE_SHELLS` -/
def batchFuelFeeShells : U128 := 2

/-- The errors of the contract, by the handler that reports them: the deployment, -/
def initError : U32 := 1400
/-- a message on its own, -/
def messageError : U32 := 1401
/-- and a batch. -/
def batchError : U32 := 1402

/-- Source: `BatchPatchContract::init` -/
def init (input : MessageInput) : MessageOutput :=
  if input.requiredStateOutputMode ≠ .fullReplace then .failure initError
  else .success (.fullReplace (patch (zeros stateBytes).val 0
    (toLe (BitVec.ofNat 32 statePayloadBytes))))

/-- Source: `valid_counter` -/
def validCounter (state : Bytes) : Option U64 :=
  if state.length ≠ stateBytes ∨ state.take 4 ≠ toLe (BitVec.ofNat 32 statePayloadBytes) ∨
      (state.drop (counterOffset + counterBytes)).any (fun byte => decide (byte ≠ 0)) = true then none
  else ((getRange state counterOffset (counterOffset + counterBytes)).bind (tryIntoArray 8)).map
    fun part => ofLe 64 part.val

/-- Source: `process_batch`, `let failure` -/
def failure (input : BatchInput) : BatchOutput where
  stateUpdate := .dataPatchList []
  statusCodes := List.replicate input.messageCount.toNat batchError
  outboundIntents := []
  eventIntents := []

/-- The patch of the counter. Source: `process_batch`, `StatePatch` -/
def increment (nextCounter : U64) : BatchOutput where
  stateUpdate := .dataPatchList [⟨BitVec.ofNat 32 counterOffset, BitVec.ofNat 32 counterBytes,
    toLe nextCounter⟩]
  statusCodes := [0]
  outboundIntents := []
  eventIntents := []

section

variable [Target]

/-- The message of a batch. Source: `process_batch`, `let Some(Ok(CanonicalMessage::Internal(..)))` -/
def firstInternal (input : BatchInput) : Option InternalMessage :=
  match input.messages.next with
  | some (.ok (.internal message), _) => some message
  | _ => none

/-- The checks of the message. Source: `process_batch`, `let mut extra` and what follows -/
def checkedMessage (input : BatchInput) (message : InternalMessage) : Option Unit :=
  match message.extra.items with
  | ecc0 :: currency :: rest =>
      guard ¬ (message.source = input.destination ∨
        message.source.dappId ≠ input.destination.dappId ∨ message.destination ≠ input.destination ∨
        ecc0.currencyId ≠ 0 ∨ ecc0.amount ≠ valueEcc0 ∨
        message.fuelFeeShells ≠ batchFuelFeeShells ∨ currency.currencyId ≠ extraCurrencyId ∨
        currency.amount ≠ extraCurrencyAmount ∨ rest ≠ [] ∨
        (CanonicalMessage.internal message).isCallback ∨
        (CanonicalMessage.internal message).isDeploy ∨
        (CanonicalMessage.internal message).hasCallbackRequest ∨ message.eventReads.isSome = true ∨
        message.body ≠ internalPatchBody)
  | _ => none

/-- The counter after a batch, if it counts. -/
def nextCounter (input : BatchInput) : Option U64 := do
  let previousCounter ← validCounter input.state
  guard ¬ (input.requiredStateOutputMode ≠ .dataPatchList ∨ input.messageCount ≠ 1 ∨
    input.internalEventResults ≠ toLe (0 : U32))
  let message ← firstInternal input
  checkedMessage input message
  wordCheckedAdd previousCounter 1

/-- Source: `BatchPatchContract::process_batch` -/
def processBatch (input : BatchInput) : BatchOutput :=
  match nextCounter input with
  | some next => increment next
  | none => failure input

/-- Source: `BatchPatchContract` -/
def batchPatch : BatchContract where
  init := init
  processMessage _ := .failure messageError
  processBatch := processBatch

end

/-! ## States -/

/-- The bytes of a counter. -/
def encode (n : U64) : Bytes :=
  toLe (BitVec.ofNat 32 statePayloadBytes) ++ (toLe n ++ (zeros 65528).val)

/-- The length of a counter. -/
@[simp] theorem length_encode (n : U64) : (encode n).length = stateBytes := by
  rw [encode, List.length_append, List.length_append, length_toLe, length_toLe, length_bytesN]

/-- Distinct counters have distinct encodings. -/
theorem encode_injective : Function.Injective encode := by
  intro n m h
  have hrest := (List.append_inj h rfl).2
  exact toLe_inj (by decide) (List.append_inj hrest (by rw [length_toLe, length_toLe])).1

/-- A state that passes the checks of `valid_counter` has its counter between the length and the
zeros. -/
theorem split_of_checks {b : Bytes} (hlen : b.length = stateBytes)
    (htake : b.take 4 = toLe (BitVec.ofNat 32 statePayloadBytes))
    (hnone : ¬ (b.drop (counterOffset + counterBytes)).any (fun byte => decide (byte ≠ 0)) = true) :
    b = toLe (BitVec.ofNat 32 statePayloadBytes) ++ ((b.drop 4).take 8 ++ (zeros 65528).val) := by
  have hrest : (b.drop (counterOffset + counterBytes)).length = 65528 := by
    rw [List.length_drop, hlen]
    rfl
  rw [Forward.noneSet_iff hrest] at hnone
  rw [← htake, ← hnone, ← List.drop_drop (i := 8) (j := 4), List.take_append_drop,
    List.take_append_drop]

/-- **A counter is read** exactly where one was written. -/
theorem validCounter_iff {b : Bytes} {n : U64} : validCounter b = some n ↔ b = encode n := by
  unfold validCounter
  have hfront : (toLe (BitVec.ofNat 32 statePayloadBytes)).length = 4 := length_toLe _
  split_ifs with hcheck
  · refine iff_of_false (by rintro ⟨⟩) ?_
    rintro rfl
    have hdrop : (encode n).drop (counterOffset + counterBytes) = (zeros 65528).val := by
      rw [encode, ← List.append_assoc]
      apply List.drop_left'
      rw [List.length_append, length_toLe, length_toLe]
    have htake : (encode n).take 4 = toLe (BitVec.ofNat 32 statePayloadBytes) :=
      List.take_left' hfront
    rcases hcheck with hno | hno | hno
    · exact hno (length_encode n)
    · exact hno htake
    · rw [hdrop] at hno
      exact (Forward.noneSet_iff (zeros 65528).property).mpr rfl hno
  · obtain ⟨hlen, hcheck⟩ := not_or.mp hcheck
    obtain ⟨htake, hnone⟩ := not_or.mp hcheck
    rw [not_not] at hlen htake
    have hsplit := split_of_checks hlen htake hnone
    obtain ⟨part, hpart⟩ : ∃ part, part = (b.drop 4).take 8 := ⟨_, rfl⟩
    have hcounter : part.length = 8 := by
      rw [hpart, List.length_take, List.length_drop, hlen]
      rfl
    have hrange : getRange b counterOffset (counterOffset + counterBytes) = some part := by
      rw [getRange_eq_some, List.extract_eq_take_drop]
      exact ⟨⟨Nat.le_add_right _ _, by rw [hlen]; decide⟩, hpart.symm⟩
    have htry : tryIntoArray 8 part = some ⟨part, hcounter⟩ := tryIntoArray_eq_some.mpr rfl
    rw [hrange, Option.bind_some, htry, Option.map_some, Option.some.injEq]
    rw [← hpart] at hsplit
    constructor
    · rintro rfl
      rw [encode, toLe_ofLe (by rw [hcounter])]
      exact hsplit
    · intro hb
      rw [hb] at hsplit
      have hread := (List.append_inj hsplit rfl).2
      obtain ⟨rfl, -⟩ := List.append_inj hread (by rw [length_toLe, hcounter])
      exact ofLe_toLe (w := 64) (by decide) n

/-- A new state: the length, the counter and the rest, all zero. -/
theorem zeros_stateBytes :
    (zeros stateBytes).val = (zeros 4).val ++ (toLe (0 : U64) ++ (zeros 65528).val) := by
  have hword : toLe (0 : U64) = List.replicate 8 0 := by decide
  rw [hword]
  unfold zeros
  rw [List.replicate_append_replicate, List.replicate_append_replicate]

/-- The counter that is patched in. -/
theorem increment_appliedTo (n m : U64) : (increment m).appliedTo (encode n) = encode m := by
  have hkeeps : ∀ p ∈ [(⟨BitVec.ofNat 32 counterOffset, BitVec.ofNat 32 counterBytes, toLe m⟩ :
      StatePatch)], p.KeepsLength :=
    List.forall_mem_singleton.mpr (length_toLe m).symm
  show (StateUpdate.dataPatchList _).appliedTo _ = _
  rw [appliedTo_dataPatchList hkeeps]
  exact patch_middle (length_toLe (BitVec.ofNat 32 statePayloadBytes)).symm
    (by rw [length_toLe, length_toLe])

/-! ## The batches that count -/

section

variable [Target] {x : BatchInput} {m : InternalMessage} {ms : List CanonicalMessage}

/-- A message that counts: the right values and the right body, sent by another account of the same
application. -/
structure Brings (account : AccountAddress) (m : InternalMessage) : Prop where
  source_ne : m.source ≠ account
  dappId_eq : m.source.dappId = account.dappId
  extra_eq : m.extra.items = [⟨0, valueEcc0⟩, ⟨extraCurrencyId, extraCurrencyAmount⟩]
  fuelFeeShells_eq : m.fuelFeeShells = batchFuelFeeShells
  plain : ¬ (CanonicalMessage.internal m).isDeploy
  eventReads_eq : m.eventReads = none
  body_eq : m.body = internalPatchBody

/-- **The batches that count**: one such message, no event results, and patches are asked for. -/
structure Counts (x : BatchInput) : Prop where
  mode_eq : x.requiredStateOutputMode = .dataPatchList
  results_eq : x.internalEventResults = toLe (0 : U32)
  message : ∃ m, x.Carries [.internal m] ∧ Brings x.destination m

omit [Target] in
/-- Two entries of the right currencies and amounts. -/
theorem entries_iff {ecc0 currency : CurrencyAmount} {rest : List CurrencyAmount} :
    ecc0 :: currency :: rest = [⟨0, valueEcc0⟩, ⟨extraCurrencyId, extraCurrencyAmount⟩] ↔
      ecc0.currencyId = 0 ∧ ecc0.amount = valueEcc0 ∧ currency.currencyId = extraCurrencyId ∧
        currency.amount = extraCurrencyAmount ∧ rest = [] := by
  obtain ⟨id, amount⟩ := ecc0
  obtain ⟨id', amount'⟩ := currency
  simp only [List.cons.injEq, CurrencyAmount.mk.injEq, and_assoc]

/-- **The checks of a message** that a decoded batch carries. That it is no callback, asks for none and
is sent to this account was checked with the frame. -/
theorem checkedMessage_iff (hm : BatchMessage x.destination (.internal m)) :
    checkedMessage x m = some () ↔ Brings x.destination m := by
  have hdestination : m.destination = x.destination := hm.destination_eq
  unfold checkedMessage
  split
  · rename_i ecc0 currency rest hitems
    rw [Option.guard_eq_some', not_or]
    simp only [not_or, not_not]
    constructor
    · intro ⟨hsource, hdapp, _, hid, hamount, hfee, hid', hamount', hrest, _, hdeploy, _, hreads,
        hbody⟩
      exact ⟨hsource, hdapp, hitems.trans (entries_iff.mpr ⟨hid, hamount, hid', hamount', hrest⟩),
        hfee, hdeploy, Option.not_isSome_iff_eq_none.mp hreads, hbody⟩
    · intro h
      obtain ⟨hid, hamount, hid', hamount', hrest⟩ := entries_iff.mp (hitems.symm.trans h.extra_eq)
      exact ⟨h.source_ne, h.dappId_eq, hdestination, hid, hamount, h.fuelFeeShells_eq, hid', hamount',
        hrest, hm.not_callback, h.plain, hm.not_request, Option.not_isSome_iff_eq_none.mpr
        h.eventReads_eq, h.body_eq⟩
  · rename_i hshort
    refine iff_of_false (by rintro ⟨⟩) fun h => ?_
    exact hshort _ _ _ h.extra_eq

/-- The first message of a batch. -/
theorem firstInternal_iff (hx : x.Framed) (hms : x.Carries ms) :
    firstInternal x = some m ↔ ∃ rest, ms = .internal m :: rest := by
  obtain ⟨t, hrun, hstop⟩ := hms.exhausts hx
  unfold firstInternal
  cases ms with
  | nil =>
      cases hrun
      rw [hstop]
      exact iff_of_false (by rintro ⟨⟩) (by rintro ⟨_, ⟨⟩⟩)
  | cons first rest =>
      cases hrun with
      | step hnext _ =>
          rw [hnext]
          cases first with
          | internal first => simp
          | external first => simp

/-- **The counter after a batch**: there is one exactly if there was one before, the batch counts, and
the number has room. -/
theorem nextCounter_iff (hx : x.Framed) (hms : x.Carries ms) {next : U64} :
    nextCounter x = some next ↔
      ∃ n, x.state = encode n ∧ Counts x ∧ n.toNat + 1 < 2 ^ 64 ∧ n + 1 = next := by
  unfold nextCounter
  simp only [bind, Option.bind_eq_some_iff, Option.guard_eq_some', exists_const, validCounter_iff,
    Forward.nextCount_iff, not_or, not_not]
  constructor
  · rintro ⟨n, hstate, ⟨hmode, hcount, hresults⟩, m, hfirst, _, hchecked, hroom, hnext⟩
    obtain ⟨rest, rfl⟩ := (firstInternal_iff hx hms).mp hfirst
    -- it is the only message
    have hone := hms.count_eq
    rw [hcount] at hone
    obtain rfl : rest = [] := List.length_eq_zero_iff.mp (Nat.succ.inj hone).symm
    have hm := hms.messages_ok _ List.mem_cons_self
    exact ⟨n, hstate, ⟨hmode, hresults, m, hms, (checkedMessage_iff hm).mp hchecked⟩, hroom, hnext⟩
  · rintro ⟨n, hstate, ⟨hmode, hresults, m, hcarries, hbrings⟩, hroom, hnext⟩
    have hm := hcarries.messages_ok _ List.mem_cons_self
    have hcount : x.messageCount = 1 := BitVec.eq_of_toNat_eq hcarries.count_eq
    exact ⟨n, hstate, ⟨hmode, hcount, hresults⟩, m, (firstInternal_iff hx hcarries).mpr ⟨[], rfl⟩,
      (), (checkedMessage_iff hm).mpr hbrings, hroom, hnext⟩

/-! ## What the host gets back -/

/-- What the host is told of a batch: the answer, if it passes the gate. -/
def tellBatch (x : BatchInput) : Option BatchOutput :=
  match batchOutputLenFor x (batchPatch.processBatch x) with
  | .ok _ => some (batchPatch.processBatch x)
  | .error _ => none

/-- What the host is told of a message. -/
def tellMessage (x : MessageInput) : Option MessageOutput :=
  match messageOutputLenFor x false (batchPatch.processMessage x) with
  | .ok _ => some (batchPatch.processMessage x)
  | .error _ => none

/-- **What is to be told** of a batch, where the counter is `n`. -/
inductive Told (n : U64) (x : BatchInput) : Option BatchOutput → Prop
  /-- The batch counts, and the number has room. -/
  | counted (counts : Counts x) (room : n.toNat + 1 < 2 ^ 64) : Told n x (some (increment (n + 1)))
  /-- Every message of the batch has failed. -/
  | refused (mode_eq : x.requiredStateOutputMode = .dataPatchList)
      (refused : ¬ (Counts x ∧ n.toNat + 1 < 2 ^ 64)) : Told n x (some (failure x))
  /-- The contract answers with patches, and the host has asked for a full state. -/
  | lost (mode_eq : x.requiredStateOutputMode = .fullReplace) : Told n x none

/-- A batch answers with patches, whatever happens. -/
theorem processBatch_mode (x : BatchInput) : (processBatch x).stateUpdate.mode = .dataPatchList := by
  unfold processBatch
  cases nextCounter x <;> rfl

/-- A batch that counts passes. -/
theorem passes_increment (h : Counts x) (next : U64) :
    ∃ n, batchOutputLenFor x (increment next) = .ok n := by
  obtain ⟨m, hcarries, -⟩ := h.message
  have hnew : (toLe next).length = 8 := length_toLe next
  refine ⟨_, batchOutputLenFor_ok_iff.mpr ⟨⟨hcarries.count_eq, List.forall_mem_nil _,
    List.forall_mem_nil _⟩, ⟨?_, ⟨?_, ?_, ?_, List.pairwise_singleton _ _⟩, ?_, Nat.two_pow_pos 32,
    List.forall_mem_nil _, Nat.two_pow_pos 32, List.forall_mem_nil _⟩, rfl, ?_⟩⟩
  · rintro mode ⟨⟩
    exact h.mode_eq
  · show 1 < 2 ^ 16
    decide
  · refine List.forall_mem_singleton.mpr ?_
    show counterOffset + counterBytes < 2 ^ 32
    decide
  · refine List.forall_mem_singleton.mpr ?_
    show (toLe next).length < 2 ^ 32
    rw [hnew]
    decide
  · exact List.forall_mem_singleton.mpr (.inl rfl)
  · apply le_usizeMax
    simp [BatchOutput.length_toBytes, increment, StateUpdate.length_toBytes,
      StateUpdate.payload, StatePatch.toBytes, counted, lengthPrefixed]

/-- **What is told of a batch**, in every state that holds a counter. -/
theorem told_tellBatch {frame : Slice} {n : U64} (hdecode : decodeBatchInput frame.bytes = .ok x)
    (hstate : x.state = encode n) : Told n x (tellBatch x) := by
  obtain ⟨-, hframed, ms, hcarries⟩ := (decodeBatchInput_ok_iff frame x).mp hdecode
  have hnext : ∀ next : U64, nextCounter x = some next ↔
      ∃ n, x.state = encode n ∧ Counts x ∧ n.toNat + 1 < 2 ^ 64 ∧ n + 1 = next :=
    fun next => nextCounter_iff hframed hcarries
  unfold tellBatch
  cases hmode : x.requiredStateOutputMode with
  | fullReplace =>
      split
      · rename_i hgate
        obtain ⟨-, hshaped, -⟩ := batchOutputLenFor_ok_iff.mp hgate
        have hasked := hshaped.mode_ok _ rfl
        rw [hmode] at hasked
        exact absurd (hasked.trans (processBatch_mode x)) (by rintro ⟨⟩)
      · exact .lost hmode
  | dataPatchList =>
      show Told n x (match batchOutputLenFor x (processBatch x) with
        | .ok _ => some (processBatch x)
        | .error _ => none)
      unfold processBatch
      cases hcounter : nextCounter x with
      | some next =>
          obtain ⟨m, hm, hcounts, hroom, rfl⟩ := (hnext next).mp hcounter
          obtain rfl : n = m := encode_injective (hstate.symm.trans hm)
          obtain ⟨length, hgate⟩ := passes_increment hcounts (n + 1)
          dsimp only
          rw [hgate]
          exact .counted hcounts hroom
      | none =>
          have hfailure : failure x = Audit.Layout.failure x batchError := by
            unfold failure Audit.Layout.failure Audit.replacement
            rw [hmode, if_pos rfl]
          have herror : ErrorCode batchError := by decide
          obtain ⟨⟨length, hgate⟩, -⟩ := Audit.passes_failure hdecode herror
          rw [← hfailure] at hgate
          dsimp only
          rw [hgate]
          refine .refused hmode fun ⟨hcounts, hroom⟩ => ?_
          have hsome := (hnext (n + 1)).mpr ⟨n, hstate, hcounts, hroom, rfl⟩
          rw [hcounter] at hsome
          cases hsome

/-- A message is refused, and the host is told. -/
theorem tellMessage_eq {x : MessageInput} (hplain : ¬ x.message.isDeploy) :
    tellMessage x = some (.failure messageError) := by
  have herror : ErrorCode messageError := by decide
  have hkind : x.message.isDeploy ↔ false = true := iff_of_false hplain Bool.false_ne_true
  obtain ⟨n, hgate⟩ := exists_outputLen_failure herror hkind
  have hanswer : batchPatch.processMessage x = .failure messageError := rfl
  rw [tellMessage, hanswer, hgate]

/-! ## Runs -/

/-- What an account is sent, with what the host is told. -/
inductive Exchange
  | message (x : MessageInput) (answer : Option MessageOutput)
  | batch (x : BatchInput) (answer : Option BatchOutput)

/-- One exchange. The frame hands over the state; what is told is applied to it, and what is lost leaves
it. -/
inductive Step : Bytes → Exchange → Bytes → Prop
  | message {b : Bytes} {frame : Slice} {x : MessageInput}
      (hdecode : decodeMessageInput frame.bytes = .ok x) (plain : ¬ x.message.isDeploy)
      (state_eq : x.state = b) :
      Step b (.message x (tellMessage x)) ((tellMessage x).elim b fun answer => answer.appliedTo b)
  | batch {b : Bytes} {frame : Slice} {x : BatchInput}
      (hdecode : decodeBatchInput frame.bytes = .ok x) (state_eq : x.state = b) :
      Step b (.batch x (tellBatch x)) ((tellBatch x).elim b fun answer => answer.appliedTo b)

/-- An account of the contract, from its deployment on. -/
abbrev Runs : List Exchange → Bytes → Prop :=
  Run (fun b => ∃ start, batchPatch.Starts start b) Step

namespace Exchange

/-- The exchange hands over a batch that counts. -/
def Counted : Exchange → Prop
  | message _ _ => False
  | batch x _ => Counts x

/-- The answer is the one that is to be told, where the counter is `n`. -/
def Tells (n : U64) : Exchange → Prop
  | message _ answer => answer = some (.failure messageError)
  | batch x answer => Told n x answer

end Exchange

open scoped Classical in
/-- How many batches have counted: no more than there is room for. -/
noncomputable def number (es : List Exchange) : ℕ := min (es.countP Exchange.Counted) (2 ^ 64 - 1)

variable {es : List Exchange} {e : Exchange} {b b' : Bytes}

/-- The number of a history fits. -/
theorem toNat_number (es : List Exchange) : (BitVec.ofNat 64 (number es)).toNat = number es := by
  have hle : number es ≤ 2 ^ 64 - 1 := min_le_right _ _
  rw [BitVec.toNat_ofNat, Nat.mod_eq_of_lt (by omega)]

open scoped Classical in
/-- One more exchange. -/
theorem number_snoc (es : List Exchange) (e : Exchange) :
    number (es ++ [e]) =
      if e.Counted ∧ number es + 1 < 2 ^ 64 then number es + 1 else number es := by
  unfold number
  rw [List.countP_append, List.countP_singleton]
  by_cases h : e.Counted
  · simp only [h, decide_true, if_true, true_and]
    split_ifs <;> omega
  · simp [h]

/-- **A batch** tells what is to be told, and adds one if it counts. -/
theorem Told.appliedTo {n : U64} {answer : Option BatchOutput} (h : Told n x answer) :
    (Counts x ∧ n.toNat + 1 < 2 ^ 64 ∧
        answer.elim (encode n) (fun answer => answer.appliedTo (encode n)) = encode (n + 1)) ∨
      (¬ (Counts x ∧ n.toNat + 1 < 2 ^ 64) ∧
        answer.elim (encode n) (fun answer => answer.appliedTo (encode n)) = encode n) := by
  cases h with
  | counted counts room => exact .inl ⟨counts, room, increment_appliedTo n (n + 1)⟩
  | refused mode_eq refused => exact .inr ⟨refused, rfl⟩
  | lost mode_eq =>
      refine .inr ⟨fun h => ?_, rfl⟩
      have hmode := h.1.mode_eq
      rw [mode_eq] at hmode
      cases hmode

open scoped Classical in
/-- **One exchange** tells what is to be told, and adds one if it counts. -/
theorem Step.tells {n : U64} (h : Step (encode n) e b) :
    e.Tells n ∧ b = encode (if e.Counted ∧ n.toNat + 1 < 2 ^ 64 then n + 1 else n) := by
  cases h with
  | message hdecode plain state_eq =>
      rw [tellMessage_eq plain, if_neg fun h => h.1]
      exact ⟨rfl, rfl⟩
  | @batch frame x hdecode state_eq =>
      have htold := told_tellBatch hdecode state_eq
      rcases htold.appliedTo with ⟨hcounts, hroom, hnext⟩ | ⟨hno, hnext⟩
      · exact ⟨htold, hnext.trans (congrArg encode (if_pos ⟨hcounts, hroom⟩).symm)⟩
      · exact ⟨htold, hnext.trans (congrArg encode (if_neg hno).symm)⟩

/-- After the deployment the counter is zero. -/
theorem encode_of_starts {start : MessageInput} (h : batchPatch.Starts start b) : b = encode 0 := by
  obtain ⟨-, hstatus, rfl⟩ := h
  have hinit : batchPatch.init start = init start := rfl
  rw [hinit] at hstatus ⊢
  unfold init at hstatus ⊢
  split_ifs at hstatus ⊢ with hmode
  · exact absurd hstatus (by decide)
  · show patch (zeros stateBytes).val 0 (toLe (BitVec.ofNat 32 statePayloadBytes)) = encode 0
    rw [zeros_stateBytes, ← List.nil_append ((zeros 4).val ++ _),
      patch_middle (List.length_nil).symm (by rw [length_toLe, length_bytesN]), List.nil_append,
      encode]

/-- The state of an account is its number. -/
theorem encode_number_of_run (hrun : Runs es b) : b = encode (BitVec.ofNat 64 (number es)) := by
  classical
  refine hrun.invariant (I := fun es b => b = encode (BitVec.ofNat 64 (number es))) ?_ ?_
  · rintro b ⟨start, hstart⟩
    exact encode_of_starts hstart
  · rintro es b e t - rfl hstep
    rw [hstep.tells.2, toNat_number, number_snoc]
    congr 1
    split_ifs with hcounts
    · exact (BitVec.ofNat_add _ _).symm
    · rfl

/-- **Runs of an account.** Its state is the number of the batches that have counted, up to the largest
number of 64 bits, and what the host was told at any time follows from the number at that time. -/
theorem told_of_run (hrun : Runs es b) :
    b = encode (BitVec.ofNat 64 (number es)) ∧
      ∀ pre e post, es = pre ++ e :: post → e.Tells (BitVec.ofNat 64 (number pre)) := by
  refine ⟨encode_number_of_run hrun, ?_⟩
  rintro pre e post rfl
  obtain ⟨t, u, hbefore, hstep⟩ := hrun.before
  rw [encode_number_of_run hbefore] at hstep
  exact hstep.tells.1

end

/-! ## One batch -/

section

local instance : Target := Target.wasm32

/-- The deployment, signed by a key. -/
def sampleStart : MessageInput :=
  signedInput ⟨0, 0, 0, zeros 32⟩ (.ofEntries []) []
    { pubkey := (sampleAddress 1).dappId
      destination := sampleAddress 5
      deploys := true
      methodId := 0
      extra := .ofEntries []
      body := [] }

/-- A message that counts. -/
def sampleMessage : InternalMessage :=
  InternalMessage.sent
    { flags := 0
      methodId := 7
      fuelFeeShells := batchFuelFeeShells
      createdLt := 2
      createdAt := 0
      source := { sampleAddress 5 with accountId := (sampleAddress 9).accountId }
      destination := sampleAddress 5
      callback := none
      callbackHandlerMethodId := none
      eventReads := none
      extra := .ofEntries [⟨0, valueEcc0⟩, ⟨extraCurrencyId, extraCurrencyAmount⟩]
      body := internalPatchBody
      canonicalBytes := [] }

/-- The batch of this message. -/
def sampleBatch : BatchInput :=
  BatchInput.withMessages
    { context := ⟨0, 0, 0, zeros 32⟩
      destination := sampleAddress 5
      selectedCodeId := zeros 32
      requiredStateOutputMode := .dataPatchList
      extra := .ofEntries []
      state := encode 0
      offsets := []
      messageBytes := []
      messageCount := 0
      internalEventResults := toLe (0 : U32) }
    [.internal sampleMessage]

/-- The sample batch carries the sample message, -/
theorem sampleBatch_carries :
    sampleBatch.Framed ∧ sampleBatch.Carries [.internal sampleMessage] := by
  have hlength : sampleMessage.serialize.length = 232 := by decide +kernel
  have hdecode : decodeCanonicalMessage sampleMessage.serialize = .ok (.internal sampleMessage) := by
    decide +kernel
  have hmessage := (decodeCanonicalMessage_ok_iff
    ⟨sampleMessage.serialize, le_usizeMax (by rw [hlength]; decide)⟩ _).mp hdecode
  refine BatchInput.carries_withMessages CurrencyAmounts.wellFormed_ofEntries_nil ?_ ?_ ?_ ?_
  · exact (length_encode 0).trans_lt (by decide)
  · exact (length_toLe (0 : U32)).trans_lt (by decide)
  · refine List.forall_mem_singleton.mpr ⟨hmessage.2.2, rfl, rfl, ?_, ?_⟩ <;> decide
  · show ([sampleMessage.serialize].flatten).length < 2 ^ 32
    rw [List.flatten_singleton, hlength]
    decide

/-- and counts it. -/
theorem sampleBatch_counts : Counts sampleBatch := by
  refine ⟨rfl, rfl, sampleMessage, sampleBatch_carries.2, ?_, rfl, ?_, rfl, ?_, rfl, rfl⟩
  · decide
  · exact CurrencyAmounts.items_ofEntries (by decide)
  · decide

/-- The batch counts, and the host is told. -/
theorem told_of_run_sample :
    ∃ b e, Runs [e] b ∧ e.Counted ∧ e.Tells 0 ∧ b = encode (BitVec.ofNat 64 (number [e])) := by
  have hkey : (sampleAddress 1).dappId ≠ zeros 32 := by decide
  have hdestination : ¬ isZeroAddress (sampleAddress 5) := by decide
  have hstart : batchPatch.Starts sampleStart (batchPatch.init sampleStart |>.nextState []) := by
    refine ⟨signedInput_wellFormed ⟨hkey, hdestination, CurrencyAmounts.wellFormed_ofEntries_nil,
      Nat.two_pow_pos 31⟩ CurrencyAmounts.wellFormed_ofEntries_nil (Nat.two_pow_pos 32), rfl, rfl⟩
  obtain ⟨hframed, hcarries⟩ := sampleBatch_carries
  have hlength : sampleBatch.toBytes.length ≤ usizeMax := by
    have hstate : sampleBatch.state.length = stateBytes := length_encode 0
    have hoffsets : sampleBatch.offsets.length = 8 := hframed.offsets_length
    have hmessages : sampleBatch.messageBytes.length = 232 := by decide +kernel
    have hresults : sampleBatch.internalEventResults.length = 4 := length_toLe (0 : U32)
    apply le_usizeMax
    simp only [BatchInput.toBytes, List.length_append, length_lengthPrefixed, hstate, hoffsets,
      hmessages, hresults]
    decide +kernel
  have hdecode : decodeBatchInput (Slice.mk _ hlength).bytes = .ok sampleBatch :=
    (decodeBatchInput_ok_iff ⟨_, hlength⟩ _).mpr ⟨rfl, hframed, _, hcarries⟩
  have hzero := encode_of_starts hstart
  have hrun : Runs [.batch sampleBatch (tellBatch sampleBatch)] _ :=
    (Run.start ⟨sampleStart, hstart⟩).snoc (.batch hdecode hzero.symm)
  obtain ⟨hstate, htold⟩ := told_of_run hrun
  have hnumber : number [] = 0 := rfl
  have htells := htold [] _ [] rfl
  rw [hnumber] at htells
  exact ⟨_, _, hrun, sampleBatch_counts, htells, hstate⟩

end

end AvmSdk.BatchPatch
