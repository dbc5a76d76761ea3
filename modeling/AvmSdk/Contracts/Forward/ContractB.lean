import AvmSdk.Contracts.Forward.Record
import AvmSdk.Sdk.Input.Signed

/-!
# Contract B

The contract `contract-b`, to which contract A forwards: it takes exactly the value that A sends,
reports what it has taken in two events and in a callback, and can be drained once. Before anything
else it can record the result of one event read.

* `Inbox`: a state, with its counter. `Taken`: what an accepted message does.
* `process_ok_iff`: the contract accepts exactly the messages that ask for an act which the state
  allows.
-/

namespace AvmSdk.Forward.ContractB

open Wire Sdk Contracts

/-- Source: `STATE_BYTES` -/
abbrev stateBytes : ℕ := 128

/-- Source: `CAUSAL_A_STATE_BYTES` -/
abbrev causalAStateBytes : ℕ := 72

/-- Source: `DRAIN_METHOD_ID` -/
def drainMethodId : U64 := 0x4c2d0105ca924509

/-- Source: `PAYOUT_METHOD_ID` -/
def payoutMethodId : U64 := versionMethodId

/-- Source: `EXTERNAL_EVENT_CLASS` -/
def externalEventClass : U64 := 0x71228a3dc1799631

/-- Source: `INTERNAL_EVENT_CLASS` -/
def internalEventClass : U64 := 0x127e58f93e9d40f8

/-- Source: `EVENT_READ_STATE_MARKER` -/
def eventReadStateMarker : Bytes := asBytes "EVREAD1!"

/-- The errors of contract-b, by what is wrong: the caller, -/
def callerError : U32 := 1100
/-- the counter, -/
def stateError : U32 := 1101
/-- the value that comes along, -/
def transferError : U32 := 1102
/-- the body, -/
def bodyError : U32 := 1103
/-- the missing request for a callback, -/
def requestError : U32 := 1104
/-- the events, -/
def eventError : U32 := 1105
/-- and the event read. -/
def readError : U32 := 1106

/-- The two events of a delivery.
Source: `external_fields` to `event_intents`, in `init` and `process_message` -/
def causalEvents (destination : AccountAddress) (count : U64) : Except U32 (List EventIntent) := do
  let externalFields ← (encodeEventFields [
    ⟨"count", .u64 count⟩,
    ⟨"destination", .address destination⟩,
    ⟨"value_ecc0", .u128 valueEcc0⟩]).mapError fun _ => eventError
  let causalAState := patch (zeros causalAStateBytes).val 0 (toLe count)
  let internalFields ← (encodeEventFields [
    ⟨"count", .u64 count⟩,
    ⟨"state", .data causalAState⟩]).mapError fun _ => eventError
  pure [⟨0, .external, externalEventClass, "causal.a.forwarded", [destination.accountId.val],
      externalFields⟩,
    ⟨0, .internal, internalEventClass, "causal.a.state", [toLe count], internalFields⟩]

/-- A payout of one unit. Source: `OutboundIntent` in `init` -/
def payout (source destination : AccountAddress) : OutboundIntent :=
  ⟨0, source, if source.dappId ≠ destination.dappId then 1 else 0, [⟨0, 1⟩], payoutMethodId, []⟩

/-- Source: `event_read_checksum` -/
def eventReadChecksum (bytes : Bytes) : U64 :=
  bytes.foldl (fun checksum byte => (checksum ^^^ byte.zeroExtend 64) * 0x00000100000001b3)
    0xcbf29ce484222325

/-- Source: `expected_prefix` -/
def expectedPrefix : Bytes := [1, 0, 0, 0, 0, 0, 1, 0]

/-- The event reads that a message asks for.
Source: `process_message`, `if let Some(reads) = message.event_reads` -/
def eventReads : CanonicalMessage → Option InternalEventReadRequests
  | .internal message => message.eventReads
  | .external _ => none

section

variable [Target]

/-- The two currencies of a transfer, and nothing else.
Source: `transferred_extra` of `init`, `extra` of `process_message` -/
def transferred (extra : CurrencyAmounts) : Except U32 (CurrencyAmount × CurrencyAmount) :=
  match extra.items with
  | ecc0 :: currency :: rest => do
      failIf (ecc0.currencyId ≠ 0 ∨ ecc0.amount ≠ valueEcc0 ∨
        currency.currencyId ≠ extraCurrencyId ∨ currency.amount ≠ extraCurrencyAmount ∨ rest ≠ [])
        transferError
      pure (ecc0, currency)
  | _ => .error transferError

/-- Source: `ContractB::init` -/
def init (input : MessageInput) : Except U32 MessageOutput :=
  match input.caller with
  | .external _ => pure (MessageOutput.success (.fullReplace (zeros stateBytes).val))
  | .internal source => do
      let _ ← transferred input.message.extra
      failIf (¬ input.message.isDeploy) transferError
      let state := patch (zeros stateBytes).val 0 (toLe (1 : U64))
      let events ← causalEvents input.destination 1
      pure { MessageOutput.success (.fullReplace state) with
        outboundIntents := List.replicate 2 (payout source input.destination)
        eventIntents := events }

/-- Source: `process_event_read` -/
def processEventRead (input : MessageInput) (previous : U64) (reads : InternalEventReadRequests) :
    Except U32 MessageOutput :=
  match reads.items with
  | [] => .error readError
  | read :: rest => do
      failIf (previous ≠ 0 ∨ (input.state.drop 8).any (fun byte => decide (byte ≠ 0)) = true ∨
        rest ≠ [] ∨ read.eventClass ≠ internalEventClass ∨ read.source = input.destination ∨
        input.message.isCallback ∨ input.message.hasCallbackRequest ∨
        input.message.extra.items ≠ [] ∨
        getRange input.internalEventResults 0 expectedPrefix.length ≠ some expectedPrefix ∨
        input.message.body ≠ input.internalEventResults) readError
      let resultLen ← okOr (tryFromUsize 32 input.internalEventResults.length) readError
      let state := patch (zeros stateBytes).val 0 (toLe (1 : U64))
      let state := patch state 8 eventReadStateMarker
      let state := patch state 16 (toLe resultLen)
      let state := patch state 20 read.source.dappId.val
      let state := patch state 52 read.source.accountId.val
      let state := patch state 84 (toLe read.eventClass)
      let state := patch state 92 (toLe (eventReadChecksum input.internalEventResults))
      pure (MessageOutput.success (.fullReplace state))

/-- The record of a delivery. Source: `process_message`, `let mut state` -/
def deliveryRecord (nextCount : U64) (source : AccountAddress) (ecc0 currency : CurrencyAmount)
    (message : CanonicalMessage) : Bytes :=
  toLe nextCount ++ (source.dappId.val ++ (source.accountId.val ++ (toLe ecc0.amount ++
    (toLe (1 : U32) ++ (toLe currency.currencyId ++ (toLe currency.amount ++
      (toLe message.methodId ++ (toLe ((tryFromUsize 32 message.body.length).getD 0) ++
        message.body.take 4))))))))

/-- Source: `ContractB::process_message`; the build switch for failing flows is off -/
def process (input : MessageInput) : Except U32 MessageOutput :=
  match input.caller with
  | .external _ => .error callerError
  | .internal source => do
      let previous ← previousCount stateBytes stateError input.state
      match eventReads input.message with
      | some reads => processEventRead input previous reads
      | none => do
          let nextCount ← okOr (wordCheckedAdd previous 1) stateError
          let (ecc0, currency) ← transferred input.message.extra
          failIf (input.message.body ≠ outboundBody) bodyError
          failIf (¬ input.message.hasCallbackRequest) requestError
          if input.message.methodId = drainMethodId then do
            failIf (previous ≠ 1) stateError
            pure { MessageOutput.success (.fullReplace input.state) with
              outboundIntents := [⟨0, source, 0, input.extra.items, payoutMethodId, []⟩]
              callbackResultBody := callbackBody }
          else do
            let state := deliveryRecord nextCount source ecc0 currency input.message
            failIf (state.length ≠ stateBytes) stateError
            let events ← causalEvents input.destination nextCount
            pure { MessageOutput.success (.fullReplace state) with
              callbackResultBody := callbackBody
              eventIntents := events }

/-- Source: `ContractB` -/
def contractB : Contract where
  init input := orFailure (init input)
  processMessage input := orFailure (process input)

end

/-! ## Events -/

/-- The two events can always be formed. -/
theorem exists_causalEvents (destination : AccountAddress) (count : U64) :
    ∃ es, causalEvents destination count = .ok es := by
  have hencode (fields : List EventField) (hlen : fields.length < 2 ^ 16) (hfits : ∀ f ∈ fields, f.Fits)
      (hnames : (fields.map fun f => f.packed.name).Pairwise (· < ·)) :
      ∃ b, encodeEventFields fields = .ok b :=
    ⟨_, encodeEventFields_ok_iff.mpr ⟨hlen, hfits, hnames, rfl⟩⟩
  have hstate : (patch (zeros causalAStateBytes).val 0 (toLe count)).length = 72 := by
    rw [length_patch, (zeros causalAStateBytes).property]
    rw [length_toLe, (zeros causalAStateBytes).property]
    decide
  obtain ⟨b, hb⟩ := hencode [⟨"count", .u64 count⟩, ⟨"destination", .address destination⟩,
      ⟨"value_ecc0", .u128 valueEcc0⟩] (by simp) (by
    simp only [List.forall_mem_cons, EventField.Fits, EventField.packed, EventValue.encoded,
      List.length_append, length_toLe, length_bytesN]
    decide) (by
    simp only [List.map_cons, List.map_nil, EventField.packed]
    decide)
  obtain ⟨b', hb'⟩ := hencode [⟨"count", .u64 count⟩, ⟨"state",
      .data (patch (zeros causalAStateBytes).val 0 (toLe count))⟩] (by simp) (by
    simp only [List.forall_mem_cons, EventField.Fits, EventField.packed, EventValue.encoded,
      length_toLe, hstate]
    decide) (by
    simp only [List.map_cons, List.map_nil, EventField.packed]
    decide)
  unfold causalEvents
  dsimp only
  rw [hb, hb']
  exact ⟨_, rfl⟩

/-! ## What is taken -/

/-- A state: how much was taken, and the record of it. -/
structure Inbox where
  count : U64
  rest : BytesN 120
deriving DecidableEq

namespace Inbox

/-- The bytes of a state. -/
def encode (s : Inbox) : Bytes := toLe s.count ++ s.rest.val

/-- The state after a deployment of somebody outside. -/
def empty : Inbox := ⟨0, zeros 120⟩

/-- The state after a deployment of another account. -/
def deployed : Inbox := ⟨1, zeros 120⟩

/-- The length of an inbox. -/
@[simp] theorem length_encode (s : Inbox) : s.encode.length = stateBytes := by
  rw [encode, List.length_append, length_toLe, s.rest.property]

/-- Distinct inboxes have distinct encodings. -/
theorem encode_injective : Function.Injective encode := by
  intro s t h
  obtain ⟨hcount, hrest⟩ := List.append_inj h (by rw [length_toLe, length_toLe])
  cases s
  cases t
  simp only [mk.injEq]
  exact ⟨toLe_inj (by decide) hcount, Subtype.ext hrest⟩

/-- The counter of a state is read, and only of a state of the right length. -/
theorem previousCount_ok_iff {e : U32} {b : Bytes} {n : U64} :
    previousCount stateBytes e b = .ok n ↔ ∃ s : Inbox, b = s.encode ∧ s.count = n := by
  rw [previousCount_iff]
  constructor
  · rintro ⟨hlen, rest, rfl⟩
    have hrest : rest.length = 120 := by
      rw [List.length_append, length_toLe] at hlen
      exact Nat.add_left_cancel hlen
    exact ⟨⟨n, ⟨rest, hrest⟩⟩, rfl, rfl⟩
  · rintro ⟨s, rfl, rfl⟩
    exact ⟨s.length_encode, _, rfl⟩

/-- No byte behind the counter is set. -/
theorem rest_eq_iff {s : Inbox} :
    ¬ (s.encode.drop 8).any (fun byte => decide (byte ≠ 0)) = true ↔ s.rest = zeros 120 := by
  have hdrop : s.encode.drop 8 = s.rest.val := List.drop_left' (length_toLe s.count)
  rw [hdrop, noneSet_iff s.rest.property, Subtype.ext_iff]

end Inbox

/-- What is recorded of a delivery. -/
def deliveryRest (source : AccountAddress) (methodId : U64) : BytesN 120 :=
  ⟨source.dappId.val ++ (source.accountId.val ++ (toLe valueEcc0 ++ (toLe (1 : U32) ++
    (toLe extraCurrencyId ++ (toLe extraCurrencyAmount ++ (toLe methodId ++ (toLe (16 : U32) ++
      outboundBody.take 4))))))), by
    have hbody : (outboundBody.take 4).length = 4 := rfl
    simp only [List.length_append, length_toLe, hbody, source.dappId.property,
      source.accountId.property]⟩

/-- What is recorded of an event read. -/
def readRest (read : InternalEventReadRequest) (results : Bytes) : BytesN 120 :=
  ⟨eventReadStateMarker ++ (toLe (BitVec.ofNat 32 results.length) ++ (read.source.dappId.val ++
    (read.source.accountId.val ++ (toLe read.eventClass ++ (toLe (eventReadChecksum results) ++
      (zeros 28).val))))), by
    have hmarker : eventReadStateMarker.length = 8 := rfl
    simp only [List.length_append, length_toLe, hmarker, read.source.dappId.property,
      read.source.accountId.property, (zeros 28).property]⟩

/-- What an accepted message does. -/
inductive Taken
  /-- A delivery is recorded. -/
  | delivery (source : AccountAddress) (methodId : U64)
  /-- The balance goes back to where the value came from. -/
  | drain (source : AccountAddress)
  /-- The result of an event read is recorded. -/
  | read (request : InternalEventReadRequest) (results : Bytes)

namespace Taken

/-- The state afterwards. -/
def next : Taken → Inbox → Inbox
  | delivery source methodId, s => ⟨s.count + 1, deliveryRest source methodId⟩
  | drain _, s => s
  | read request results, _ => ⟨1, readRest request results⟩

/-- What the state must be. -/
def Allowed : Taken → Inbox → Prop
  | delivery _ _, s => s.count.toNat + 1 < 2 ^ 64
  | drain _, s => s.count = 1
  | read _ _, s => s.count = 0 ∧ s.rest = zeros 120

/-- The result for the caller. -/
def result : Taken → Bytes
  | read _ _ => []
  | _ => callbackBody

end Taken

section

variable [Target]

/-- The messages that are sent. -/
def Taken.sends (x : MessageInput) : Taken → List OutboundIntent
  | drain source => [⟨0, source, 0, x.extra.items, payoutMethodId, []⟩]
  | _ => []

/-- The events that are reported. -/
def Taken.events (x : MessageInput) (s : Inbox) : Taken → Except U32 (List EventIntent)
  | delivery _ _ => causalEvents x.destination (s.count + 1)
  | _ => pure []

omit [Target] in
/-- The events can always be formed. -/
theorem exists_events (x : MessageInput) (s : Inbox) (act : Taken) : ∃ es, act.events x s = .ok es := by
  cases act with
  | delivery => exact exists_causalEvents _ _
  | _ => exact ⟨[], rfl⟩

/-- The answer. -/
def Taken.output (x : MessageInput) (s : Inbox) (es : List EventIntent) (act : Taken) :
    MessageOutput :=
  { MessageOutput.success (.fullReplace (act.next s).encode) with
    callbackResultBody := act.result
    outboundIntents := act.sends x
    eventIntents := es }

/-- The message brings exactly what contract A forwards, and asks for a callback. -/
structure Brings (x : MessageInput) (source : AccountAddress) : Prop where
  caller : x.caller = .internal source
  not_read : eventReads x.message = none
  extra_eq : x.message.extra.items = forwardExtra
  body_eq : x.message.body = outboundBody
  request : x.message.hasCallbackRequest

/-- The message hands over the result of one event read, of another account. -/
structure Reads (x : MessageInput) (request : InternalEventReadRequest) : Prop where
  caller : ∃ source, x.caller = .internal source
  requests : ∃ reads, eventReads x.message = some reads ∧ reads.items = [request]
  class_eq : request.eventClass = internalEventClass
  source_ne : request.source ≠ x.destination
  plain : ¬ x.message.isCallback
  not_request : ¬ x.message.hasCallbackRequest
  extra_eq : x.message.extra.items = []
  expected : getRange x.internalEventResults 0 expectedPrefix.length = some expectedPrefix
  body_eq : x.message.body = x.internalEventResults
  length_lt : x.internalEventResults.length < 2 ^ 32

/-- **The messages** that ask for an act. -/
inductive Asks (x : MessageInput) : Taken → Prop
  /-- A delivery. -/
  | delivery {source : AccountAddress} (brings : Brings x source)
      (method_ne : x.message.methodId ≠ drainMethodId) :
      Asks x (.delivery source x.message.methodId)
  /-- A drain. -/
  | drain {source : AccountAddress} (brings : Brings x source)
      (method_eq : x.message.methodId = drainMethodId) : Asks x (.drain source)
  /-- An event read. -/
  | read {request : InternalEventReadRequest} (reads : Reads x request) :
      Asks x (.read request x.internalEventResults)

variable {x : MessageInput} {out : MessageOutput} {s : Inbox}

/-! ## What the handlers accept -/

/-- The value of a forward, and no other. -/
theorem transferred_ok_iff {extra : CurrencyAmounts} {p : CurrencyAmount × CurrencyAmount} :
    transferred extra = .ok p ↔ extra.items = forwardExtra ∧
      p = (⟨0, valueEcc0⟩, ⟨extraCurrencyId, extraCurrencyAmount⟩) := by
  unfold transferred forwardExtra
  split
  next ecc0 currency rest hitems =>
    obtain ⟨id, amount⟩ := ecc0
    obtain ⟨id', amount'⟩ := currency
    rw [hitems]
    simp only [bind_ok_iff, failIf_ok_iff, exists_const, pure_ok_iff, not_or, not_not,
      List.cons.injEq, CurrencyAmount.mk.injEq]
    constructor
    · rintro ⟨⟨rfl, rfl, rfl, rfl, rfl⟩, rfl⟩
      exact ⟨⟨⟨rfl, rfl⟩, ⟨rfl, rfl⟩, rfl⟩, rfl⟩
    · rintro ⟨⟨⟨rfl, rfl⟩, ⟨rfl, rfl⟩, rfl⟩, rfl⟩
      exact ⟨⟨rfl, rfl, rfl, rfl, rfl⟩, rfl⟩
  next hshort =>
    refine iff_of_false (by rintro ⟨⟩) ?_
    rintro ⟨hitems, -⟩
    exact hshort _ _ _ hitems

omit [Target] in
/-- **The writes of an event read** to a zeroed state.
Source: `process_event_read`, `let mut state` -/
theorem read_written (request : InternalEventReadRequest) (results : Bytes) :
    patch (patch (patch (patch (patch (patch (patch (zeros stateBytes).val 0 (toLe (1 : U64))) 8
      eventReadStateMarker) 16 (toLe (BitVec.ofNat 32 results.length))) 20
        request.source.dappId.val) 52 request.source.accountId.val) 84 (toLe request.eventClass)) 92
          (toLe (eventReadChecksum results)) = (Inbox.mk 1 (readRest request results)).encode := by
  have hmarker : eventReadStateMarker.length = 8 := rfl
  have hdrop : (zeros stateBytes).val.drop 100 = (zeros 28).val := by decide
  -- the writes stand one behind the other
  rw [patch_patch (i := 0), patch_patch (i := 0), patch_patch (i := 0), patch_patch (i := 0),
    patch_patch (i := 0), patch_patch (i := 0)]
  · have hall : 0 + (toLe (1 : U64) ++ eventReadStateMarker ++
        toLe (BitVec.ofNat 32 results.length) ++ request.source.dappId.val ++
          request.source.accountId.val ++ toLe request.eventClass ++
            toLe (eventReadChecksum results)).length = 100 := by
      simp [hmarker, request.source.dappId.property, request.source.accountId.property]
    rw [patch, List.take_zero, List.nil_append, hall, hdrop]
    simp only [List.append_assoc]
    rfl
  all_goals simp [hmarker, request.source.dappId.property, request.source.accountId.property]

/-- The result of one event read is recorded. -/
theorem processEventRead_ok_iff {source : AccountAddress} {reads : InternalEventReadRequests}
    (hcaller : x.caller = .internal source) (hreads : eventReads x.message = some reads)
    (hstate : x.state = s.encode) : processEventRead x s.count reads = .ok out ↔
      ∃ request, Reads x request ∧ (Taken.read request x.internalEventResults).Allowed s ∧
        out = (Taken.read request x.internalEventResults).output x s [] := by
  unfold processEventRead
  split
  next hnone =>
    refine iff_of_false (by rintro ⟨⟩) ?_
    rintro ⟨request, hread, -⟩
    obtain ⟨reads', hreads', hitems⟩ := hread.requests
    rw [hreads, Option.some.injEq] at hreads'
    rw [← hreads', hnone] at hitems
    cases hitems
  next read rest hitems =>
    simp only [bind_ok_iff, failIf_ok_iff, exists_const, pure_ok_iff, not_or, not_not, okOr_ok_iff,
      tryFromUsize_eq_some]
    constructor
    · rintro ⟨⟨hzero, hrest, rfl, hclass, hsource, hplain, hrequest, hextra, hexpected, hbody⟩, n,
        ⟨hlt, rfl⟩, rfl⟩
      rw [hstate, Inbox.rest_eq_iff] at hrest
      refine ⟨read, ⟨⟨source, hcaller⟩, ⟨reads, hreads, hitems⟩, hclass, hsource, hplain, hrequest,
        hextra, hexpected, hbody, hlt⟩, ⟨hzero, hrest⟩, ?_⟩
      rw [read_written]
      rfl
    · rintro ⟨request, hread, ⟨hzero, hrest⟩, rfl⟩
      obtain ⟨reads', hreads', hitems'⟩ := hread.requests
      rw [hreads, Option.some.injEq] at hreads'
      rw [← hreads', hitems, List.cons.injEq] at hitems'
      obtain ⟨rfl, rfl⟩ := hitems'
      refine ⟨⟨hzero, ?_, rfl, hread.class_eq, hread.source_ne, hread.plain, hread.not_request,
        hread.extra_eq, hread.expected, hread.body_eq⟩, _, ⟨hread.length_lt, rfl⟩, ?_⟩
      · rw [hstate, Inbox.rest_eq_iff]
        exact hrest
      · rw [read_written]
        rfl

omit [Target] in
/-- The record of a delivery. -/
theorem deliveryRecord_eq {source : AccountAddress} {message : CanonicalMessage} (n : U64)
    (hbody : message.body = outboundBody) :
    deliveryRecord n source ⟨0, valueEcc0⟩ ⟨extraCurrencyId, extraCurrencyAmount⟩ message =
      (Inbox.mk n (deliveryRest source message.methodId)).encode := by
  unfold deliveryRecord
  rw [hbody]
  rfl

/-- Only other accounts are answered. -/
theorem Asks.caller {act : Taken} (h : Asks x act) : ∃ source, x.caller = .internal source := by
  cases h with
  | delivery brings => exact ⟨_, brings.caller⟩
  | drain brings => exact ⟨_, brings.caller⟩
  | read reads => exact reads.caller

/-- **What the contract accepts**: the messages that ask for an act which the state allows. -/
theorem process_ok_iff : process x = .ok out ↔
    ∃ s act es, x.state = s.encode ∧ Asks x act ∧ act.Allowed s ∧ act.events x s = .ok es ∧
      out = act.output x s es := by
  unfold process
  cases hcaller : x.caller with
  | external key =>
      refine iff_of_false (by rintro ⟨⟩) ?_
      rintro ⟨s, act, es, -, hasks, -⟩
      obtain ⟨source, hno⟩ := hasks.caller
      cases hcaller.symm.trans hno
  | «internal» source =>
      have hsame {source' : AccountAddress} (h : x.caller = .internal source') : source' = source :=
        Caller.internal.inj (h.symm.trans hcaller)
      cases hreads : eventReads x.message with
      | some reads =>
          simp only [bind_ok_iff, Inbox.previousCount_ok_iff]
          constructor
          · rintro ⟨n, ⟨s, hstate, rfl⟩, hok⟩
            obtain ⟨request, hread, hallowed, rfl⟩ :=
              (processEventRead_ok_iff hcaller hreads hstate).mp hok
            exact ⟨s, _, [], hstate, .read hread, hallowed, rfl, rfl⟩
          · rintro ⟨s, act, es, hstate, hasks, hallowed, hes, rfl⟩
            refine ⟨s.count, ⟨s, hstate, rfl⟩, ?_⟩
            cases hasks with
            | delivery brings => cases hreads.symm.trans brings.not_read
            | drain brings => cases hreads.symm.trans brings.not_read
            | read hread =>
                cases hes
                exact (processEventRead_ok_iff hcaller hreads hstate).mpr ⟨_, hread, hallowed, rfl⟩
      | none =>
          simp only [bind_ok_iff, Inbox.previousCount_ok_iff, okOr_ok_iff, nextCount_iff,
            transferred_ok_iff, failIf_ok_iff, exists_const, not_not]
          constructor
          · rintro ⟨n, ⟨s, hstate, rfl⟩, m, ⟨hlt, rfl⟩, p, ⟨hextra, rfl⟩, hbody, hrequest, hok⟩
            have hbrings : Brings x source := ⟨hcaller, hreads, hextra, hbody, hrequest⟩
            split_ifs at hok with hmethod
            · simp only [bind_ok_iff, failIf_ok_iff, exists_const, not_not, pure_ok_iff] at hok
              obtain ⟨hone, rfl⟩ := hok
              refine ⟨s, _, [], hstate, .drain hbrings hmethod, hone, rfl, ?_⟩
              rw [hstate]
              rfl
            · simp only [bind_ok_iff, failIf_ok_iff, exists_const, not_not, pure_ok_iff] at hok
              obtain ⟨-, es, hes, rfl⟩ := hok
              refine ⟨s, _, es, hstate, .delivery hbrings hmethod, hlt, hes, ?_⟩
              rw [deliveryRecord_eq _ hbody]
              rfl
          · rintro ⟨s, act, es, hstate, hasks, hallowed, hes, rfl⟩
            cases hasks with
            | @delivery source' brings hmethod =>
                obtain rfl := hsame brings.caller
                refine ⟨s.count, ⟨s, hstate, rfl⟩, _, ⟨hallowed, rfl⟩, _, ⟨brings.extra_eq, rfl⟩,
                  brings.body_eq, brings.request, ?_⟩
                simp only [if_neg hmethod, bind_ok_iff, failIf_ok_iff, exists_const, not_not,
                  pure_ok_iff, deliveryRecord_eq _ brings.body_eq]
                exact ⟨Inbox.length_encode _, es, hes, rfl⟩
            | @drain source' brings hmethod =>
                obtain rfl := hsame brings.caller
                cases hes
                have hone : s.count = 1 := hallowed
                refine ⟨s.count, ⟨s, hstate, rfl⟩, _, ⟨?_, rfl⟩, _, ⟨brings.extra_eq, rfl⟩,
                  brings.body_eq, brings.request, ?_⟩
                · rw [hone]
                  decide
                · simp only [if_pos hmethod, bind_ok_iff, failIf_ok_iff, exists_const, not_not,
                    pure_ok_iff, hstate]
                  exact ⟨hone, rfl⟩
            | read hread =>
                obtain ⟨reads, hno, -⟩ := hread.requests
                cases hreads.symm.trans hno

end

end AvmSdk.Forward.ContractB
