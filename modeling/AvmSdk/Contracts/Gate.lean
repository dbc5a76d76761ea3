import AvmSdk.Contracts.Handler

/-!
# Answers at the gate

The gate of the guest crate returns nothing to the host if it does not like an answer. The contracts
answer a call with an error code, or with a state, at most one event and at most two messages; all of
it is so short that no target runs out of numbers.

* `BriefUpdate`, `BriefEvent`, `BriefIntent`: the parts of such an answer.
* `Acceptable`: the answers to an accepted call. `exists_outputLen`: the gate accepts them, and the
  error codes.
* `Passes`: what the accounts of a contract answer in any state that they reach passes.
* `acceptable_answer`, `acceptable_announced`: answers with an event. `passes_of_steps`: contracts
  whose handlers make steps. `passes_of_replies`: contracts that answer without an event.
-/

namespace AvmSdk.Contracts

open Wire Sdk

/-- A state update in the required mode. -/
structure BriefUpdate (mode : StateOutputMode) (u : StateUpdate) : Prop where
  mode_eq : u.mode = mode
  shaped : u.Shaped
  length_le : u.toBytes.length ≤ 2 ^ 17

/-- An event with few fields. -/
structure BriefEvent (e : EventIntent) : Prop where
  shaped : e.Shaped
  length_le : e.toBytes.length ≤ 2 ^ 23

/-- A message of a single call. -/
structure BriefIntent (intent : OutboundIntent) : Prop where
  shaped : intent.Shaped
  index_eq : intent.inputIndex = 0
  length_le : intent.toBytes.length ≤ 2 ^ 10

/-- A transfer of a single call. -/
structure BriefTransfer (transfer : Transfer) : Prop where
  intent_ok : BriefIntent transfer.intent
  handler_ne_zero : transfer.handler ≠ 0

/-- The events of a single call. -/
def Reports (out : MessageOutput) : Prop := ∀ e ∈ out.eventIntents, BriefEvent e ∧ e.inputIndex = 0

/-- **The answers to an accepted call.** -/
structure Acceptable (x : MessageInput) (isInit : Bool) (out : MessageOutput) : Prop where
  answers : out.Answers x.message isInit
  status_eq : out.statusCode = 0
  update : ∃ u, out.stateUpdate = some u ∧ BriefUpdate x.requiredStateOutputMode u
  result_length : out.callbackResultBody.length ≤ 32
  outbound_length : out.outboundIntents.length ≤ 2
  outbound_ok : ∀ intent ∈ out.outboundIntents, BriefIntent intent
  callbacks_length : out.callbackIntents.length ≤ 1
  callbacks_ok : ShapedCallbacks out.outboundIntents.length out.callbackIntents
  events_length : out.eventIntents.length ≤ 1
  events_ok : Reports out

/-- **What passes.** On every state that an account of the contract reaches, and on every frame with
that state in the mode of these contracts, the gate accepts what is answered to it; and it accepts what
is answered to every deployment. -/
structure Passes [Target] (contract : Contract) : Prop where
  init_ok : ∀ (b : Slice) (x : MessageInput), decodeMessageInput b.bytes = .ok x →
    x.requiredStateOutputMode = .fullReplace → x.message.isDeploy →
    ∃ n, messageOutputLenFor x true (contract.init x) = .ok n
  process_ok : ∀ (start : MessageInput) (calls : List Call) (state : Bytes),
    contract.Runs start calls state → ∀ (b : Slice) (x : MessageInput),
    decodeMessageInput b.bytes = .ok x → x.state = state →
    x.requiredStateOutputMode = .fullReplace → ¬ x.message.isDeploy →
    ∃ n, messageOutputLenFor x false (contract.processMessage x) = .ok n

section

variable [Target] {x : MessageInput} {isInit : Bool} {out : MessageOutput}

omit [Target] in
/-- The total of a short list of small numbers. -/
theorem sum_map_le {α : Type} {f : α → ℕ} {n m : ℕ} {as : List α} (hlen : as.length ≤ n)
    (h : ∀ a ∈ as, f a ≤ m) : (as.map f).sum ≤ n * m := by
  have hsum := List.sum_le_card_nsmul (as.map f) m (List.forall_mem_map.mpr h)
  rw [List.length_map, Nat.nsmul_eq_mul] at hsum
  exact hsum.trans (Nat.mul_le_mul_right m hlen)

omit [Target] in
/-- The length of a short list of short records. -/
theorem length_counted_le {α : Type} {enc : α → Bytes} {n m : ℕ} {as : List α}
    (hlen : as.length ≤ n) (h : ∀ a ∈ as, (enc a).length ≤ m) :
    (counted 4 enc as).length ≤ 4 + n * m := by
  rw [length_counted]
  exact Nat.add_le_add_left (sum_map_le hlen h) 4

/-- **The gate accepts** the answers to accepted calls. -/
theorem Acceptable.exists_outputLen (h : Acceptable x isInit out) :
    ∃ n, messageOutputLenFor x isInit out = .ok n := by
  obtain ⟨u, hu, hbrief⟩ := h.update
  refine ⟨_, messageOutputLenFor_ok_iff.mpr ⟨h.answers, ?_, rfl, ?_⟩⟩
  · refine ⟨.inl h.status_eq, fun _ => ⟨u, hu, ?_⟩, fun hno => absurd h.status_eq hno, ?_, ?_,
      fun intent hintent => (h.outbound_ok intent hintent).shaped, ?_,
      fun e he => (h.events_ok e he).1.shaped, h.callbacks_ok,
      fun intent hintent => (h.outbound_ok intent hintent).index_eq,
      fun e he => (h.events_ok e he).2⟩
    · rintro mode ⟨⟩
      exact hbrief.mode_eq.symm
    · intro v hv
      rw [hu] at hv
      cases hv
      exact hbrief.shaped
    · exact h.outbound_length.trans_lt (by decide)
    · exact h.events_length.trans_lt (by decide)
  · have hupdate := hbrief.length_le
    have hresult := h.result_length
    have hcallbacks := h.callbacks_length
    have houtbound := length_counted_le h.outbound_length
      fun intent hintent => (h.outbound_ok intent hintent).length_le
    have hevents := length_counted_le h.events_length fun e he => (h.events_ok e he).1.length_le
    have hupgrade : (if out.codeUpgradeIntent.isSome then 64 else 0) ≤ 64 := by
      split_ifs <;> decide
    apply le_usizeMax
    rw [MessageOutput.length_toBytes, hu, Option.elim_some]
    omega

/-- **The gate accepts** error codes. -/
theorem exists_outputLen_failure {e : U32} (he : ErrorCode e)
    (hdeploy : x.message.isDeploy ↔ isInit = true) :
    ∃ n, messageOutputLenFor x isInit (.failure e) = .ok n := by
  have hanswers : (MessageOutput.failure e).Answers x.message isInit := by
    unfold MessageOutput.Answers
    cases isInit with
    | true => exact ⟨hdeploy.mpr rfl, rfl, rfl, rfl⟩
    | false =>
        refine ⟨fun hno => Bool.false_ne_true (hdeploy.mp hno), .inr rfl, ?_, fun _ => rfl⟩
        exact fun hzero => absurd hzero he.ne_zero
  have hlength : (MessageOutput.failure e).toBytes.length ≤ usizeMax := by
    apply le_usizeMax
    simp [MessageOutput.length_toBytes, MessageOutput.failure, length_counted]
  refine ⟨_, messageOutputLenFor_ok_iff.mpr ⟨hanswers, ?_, rfl, hlength⟩⟩
  exact {
    status_ok := .inr he
    success := fun hzero => absurd hzero he.ne_zero
    failure := fun _ => rfl
    stateUpdate_ok := fun _ h => absurd h (Option.not_mem_none _)
    outboundIntents_length := Nat.two_pow_pos 32
    outboundIntents_ok := List.forall_mem_nil _
    eventIntents_length := Nat.two_pow_pos 32
    eventIntents_ok := List.forall_mem_nil _
    callbackIntents_ok := ⟨List.forall_mem_nil _, List.forall_mem_nil _, List.nodup_nil⟩
    outboundIntents_index := List.forall_mem_nil _
    eventIntents_index := List.forall_mem_nil _ }

/-- **A handler** whose errors are error codes passes the gate. -/
theorem exists_outputLen_orFailure {result : Except U32 MessageOutput}
    (hdeploy : x.message.isDeploy ↔ isInit = true) (herror : Raises result ErrorCode)
    (hok : Ensures result (Acceptable x isInit)) :
    ∃ n, messageOutputLenFor x isInit (orFailure result) = .ok n := by
  cases hresult : result with
  | error e => exact exists_outputLen_failure (herror e hresult) hdeploy
  | ok out => exact (hok out hresult).exists_outputLen

/-! ## The answers of the contracts -/

omit [Target] in
/-- A call of another method is not an upgrade. -/
theorem methodId_ne_of_asks {method : U64} {actor : Bytes32} (ask : Asks x method actor)
    (h : method ≠ codeUpgradeMethodId) : x.message.methodId ≠ codeUpgradeMethodId := by
  rw [ask.method_eq]
  exact h

omit [Target] in
/-- A callback of another method is not an upgrade. -/
theorem methodId_ne_of_returns {method : U64} {source : AccountAddress} {message : InternalMessage}
    {header : CallbackHeader} (ret : Returns x source message header)
    (hmethod : message.methodId = method) (h : method ≠ codeUpgradeMethodId) :
    x.message.methodId ≠ codeUpgradeMethodId := by
  rw [ret.message_eq]
  show message.methodId ≠ codeUpgradeMethodId
  rw [hmethod]
  exact h

omit [Target] in
/-- A state of a contract is short. -/
theorem briefUpdate_fullReplace {b : Bytes} (h : b.length + 8 ≤ 2 ^ 17) :
    BriefUpdate .fullReplace (.fullReplace b) := by
  refine ⟨rfl, trivial, ?_⟩
  rw [StateUpdate.length_toBytes, StateUpdate.payload, length_lengthPrefixed]
  omega

omit [Target] in
/-- An event with few fields, of a short name and at most one topic. -/
theorem briefEvent_of_fields {k : U32} {kind : EventKind} {eventClass : U64} {name : String}
    {topics : List Bytes} {fields : List EventField} {b : Bytes}
    (h : encodeEventFields fields = .ok b) (hfew : fields.length ≤ 16)
    (hname : (asBytes name).length ≤ 2 ^ 8) (htopics : topics.length ≤ 1)
    (htopic : ∀ topic ∈ topics, topic.length ≤ 32) :
    BriefEvent ⟨k, kind, eventClass, name, topics, b⟩ := by
  have hb := length_le_of_encodeEventFields h
  have hsum : (topics.map fun topic => 2 + topic.length).sum ≤ 1 * 34 :=
    sum_map_le htopics fun topic ht => Nat.add_le_add_left (htopic topic ht) 2
  refine ⟨⟨?_, ?_, ?_, ?_, canonicalFields_iff.mpr ⟨fields, h⟩⟩, ?_⟩
  · exact hname.trans_lt (by decide)
  · exact htopics.trans_lt (by decide)
  · exact fun topic ht => (htopic topic ht).trans_lt (by decide)
  · show b.length < 2 ^ 32
    omega
  · rw [EventIntent.length_toBytes]
    dsimp only
    omega

omit [Target] in
/-- A message with one amount. -/
theorem briefIntent_of_amount {a : AccountAddress} {fee : U128} {extra : List CurrencyAmount}
    {method : U64} {body : Bytes} (ha : nonzeroAddress a) (hextra : extra.length ≤ 1)
    (hbody : body.length ≤ 32) : BriefIntent ⟨0, a, fee, extra, method, body⟩ := by
  refine ⟨⟨fun hno => ?_, hextra.trans_lt (by decide), ?_, hbody.trans_lt (by decide)⟩, rfl, ?_⟩
  · exact hno.elim ha.1 ha.2
  · match extra, hextra with
    | [], _ => exact List.Pairwise.nil
    | [c], _ => exact List.pairwise_singleton _ _
  · rw [OutboundIntent.length_toBytes]
    dsimp only
    omega

omit [Target] in
/-- **An answer** with a state, an event and perhaps a transfer. -/
theorem acceptable_answer {state : Bytes} {e : EventIntent} {o : Option Transfer}
    (hmode : x.requiredStateOutputMode = .fullReplace) (hdeploy : ¬ x.message.isDeploy)
    (hmethod : x.message.methodId ≠ codeUpgradeMethodId) (hstate : state.length + 8 ≤ 2 ^ 17)
    (he : Reports (answer state e o)) (ho : ∀ transfer ∈ o, BriefTransfer transfer) :
    Acceptable x false (answer state e o) := by
  have hupdate : ∃ u, (answer state e o).stateUpdate = some u ∧
      BriefUpdate x.requiredStateOutputMode u := by
    refine ⟨.fullReplace state, ?_, hmode ▸ briefUpdate_fullReplace hstate⟩
    cases o <;> rfl
  cases o with
  | none =>
      exact ⟨⟨hdeploy, .inr rfl, fun _ h => absurd h hmethod, fun _ => rfl⟩, rfl, hupdate,
        Nat.zero_le _, Nat.zero_le _, nofun, Nat.zero_le _, ⟨nofun, nofun, List.nodup_nil⟩, le_rfl, he⟩
  | some transfer =>
      have hbrief := ho transfer rfl
      refine ⟨⟨hdeploy, .inr rfl, fun _ h => absurd h hmethod, fun _ => rfl⟩, rfl, hupdate,
        Nat.zero_le _, Nat.le_succ 1, ?_, le_rfl, ⟨?_, ?_, List.nodup_singleton _⟩, le_rfl, he⟩
      · exact List.forall_mem_singleton.mpr hbrief.intent_ok
      · exact List.forall_mem_singleton.mpr hbrief.handler_ne_zero
      · exact List.forall_mem_singleton.mpr Nat.one_pos

omit [Target] in
/-- **The answer to a deployment** with a state and an event. -/
theorem acceptable_announced {state : Bytes} {e : EventIntent}
    (hmode : x.requiredStateOutputMode = .fullReplace) (hdeploy : x.message.isDeploy)
    (hstate : state.length + 8 ≤ 2 ^ 17) (he : Reports (announced state e)) :
    Acceptable x true (announced state e) := by
  refine ⟨⟨hdeploy, rfl, rfl, rfl⟩, rfl, ⟨.fullReplace state, rfl, ?_⟩, Nat.zero_le _, Nat.zero_le _,
    nofun, Nat.zero_le _, ⟨nofun, nofun, List.nodup_nil⟩, le_rfl, he⟩
  exact hmode ▸ briefUpdate_fullReplace hstate

/-! ## Steps -/

section

variable {S : Type} {encode : S → Bytes} {Stored : S → Prop} {Deployed : MessageInput → S → Prop}
  {Step : MessageInput → S → S → Option Transfer → Prop}
  {initHandler processHandler : MessageInput → Except U32 MessageOutput}

/-- **A contract of steps** passes the gate, if its states and its reports are short, no step answers
an upgrade, and its transfers go to accounts that exist. -/
theorem passes_of_steps
    (himpl : (⟨fun x => orFailure (initHandler x), fun x => orFailure (processHandler x)⟩ :
      Contract).Implements (stepMachine encode Stored Deployed Step))
    (hlength : ∀ s, (encode s).length + 8 ≤ 2 ^ 17)
    (hinit : ∀ x, Raises (initHandler x) ErrorCode)
    (hdeployed : ∀ x out, initHandler x = .ok out →
      ∃ s e, Stored s ∧ Deployed x s ∧ out = announced (encode s) e)
    (hcreated : ∀ x, Ensures (initHandler x) Reports)
    (hprocess : ∀ x s, Stored s → x.state = encode s → Raises (processHandler x) ErrorCode)
    (hstep : ∀ x s out, Stored s → x.state = encode s → processHandler x = .ok out →
      ∃ t o e, Step x s t o ∧ out = answer (encode t) e o)
    (hreports : ∀ x, Ensures (processHandler x) Reports)
    (hmethod : ∀ x s t o, Step x s t o → x.message.methodId ≠ codeUpgradeMethodId)
    (htransfer : ∀ x s t o, Stored s → Step x s t o → ∀ transfer ∈ o, BriefTransfer transfer) :
    Passes ⟨fun x => orFailure (initHandler x), fun x => orFailure (processHandler x)⟩ where
  init_ok b x hx hmode hdeploy := by
    apply exists_outputLen_orFailure (iff_of_true hdeploy rfl) (hinit x)
    intro out hout
    obtain ⟨s, e, -, -, rfl⟩ := hdeployed x out hout
    exact acceptable_announced hmode hdeploy (hlength s) (hcreated x _ hout)
  process_ok start calls state hrun b x hx hstate hmode hdeploy := by
    obtain ⟨s, -, hs, rfl⟩ := himpl.runs hrun
    apply exists_outputLen_orFailure (iff_of_false hdeploy Bool.false_ne_true)
      (hprocess x s hs hstate)
    intro out hout
    obtain ⟨t, o, e, hst, rfl⟩ := hstep x s out hs hstate hout
    exact acceptable_answer hmode hdeploy (hmethod x s t o hst) (hlength t) (hreports x _ hout)
      (htransfer x s t o hs hst)

end

/-! ## Replies -/

/-- An answer without events: a state, a result for the caller, messages. -/
def reply (next result : Bytes) (intents : List OutboundIntent) : MessageOutput :=
  { MessageOutput.success (.fullReplace next) with
    callbackResultBody := result, outboundIntents := intents }

/-- **A reply** that passes: a result is only given if it was asked for. -/
structure Replies (x : MessageInput) (result : Bytes) (intents : List OutboundIntent) : Prop where
  methodId_ne : x.message.methodId ≠ codeUpgradeMethodId
  result_ok : x.message.hasCallbackRequest ∨ result = []
  result_length : result.length ≤ 32
  intents_length : intents.length ≤ 2
  intents_ok : ∀ intent ∈ intents, BriefIntent intent

omit [Target] in
/-- A message that asks for nothing back. -/
theorem replies_nil (h : x.message.methodId ≠ codeUpgradeMethodId) : Replies x [] [] :=
  ⟨h, .inr rfl, Nat.zero_le _, Nat.zero_le _, nofun⟩

omit [Target] in
/-- A reply with a state, a result and intents of moderate size passes the gate. -/
theorem acceptable_reply {next result : Bytes} {intents : List OutboundIntent}
    (hmode : x.requiredStateOutputMode = .fullReplace) (hstate : next.length + 8 ≤ 2 ^ 17)
    (hresult : result.length ≤ 32) (hlength : intents.length ≤ 2)
    (hintents : ∀ intent ∈ intents, BriefIntent intent)
    (hanswers : (reply next result intents).Answers x.message isInit) :
    Acceptable x isInit (reply next result intents) := by
  refine ⟨hanswers, rfl, ⟨.fullReplace next, rfl, ?_⟩, hresult, hlength, hintents, Nat.zero_le _,
    ⟨nofun, nofun, List.nodup_nil⟩, Nat.zero_le _, nofun⟩
  exact hmode ▸ briefUpdate_fullReplace hstate

variable {initHandler processHandler : MessageInput → Except U32 MessageOutput} {Kept : Bytes → Prop}

/-- What every answer keeps is kept in every state that is reached. -/
theorem kept_of_runs (hinit : ∀ x, Raises (initHandler x) ErrorCode)
    (hdeploys : ∀ x, Ensures (initHandler x) fun out => ∃ next, Kept next ∧ out = reply next [] [])
    (hreplies : ∀ x, Kept x.state → Ensures (processHandler x) fun out => ∃ next result intents,
      Kept next ∧ Replies x result intents ∧ out = reply next result intents)
    {start : MessageInput} {calls : List Call} {state : Bytes}
    (hrun : (⟨fun x => orFailure (initHandler x), fun x => orFailure (processHandler x)⟩ :
      Contract).Runs start calls state) : Kept state := by
  refine hrun.stateInvariant ?_ ?_
  · rintro state ⟨-, hstatus, rfl⟩
    obtain ⟨out, hout⟩ := exists_ok_of_statusCode (raises_ne_zero (hinit start)) hstatus
    obtain ⟨next, hkept, rfl⟩ := hdeploys start out hout
    dsimp only
    rw [hout]
    exact hkept
  · rintro state c next hkept ⟨-, hstate, houtput, rfl⟩
    rw [houtput]
    dsimp only
    cases hresult : processHandler c.input with
    | error e => exact hkept
    | ok out =>
        obtain ⟨next, result, intents, hnext, -, rfl⟩ := hreplies c.input (hstate ▸ hkept) out hresult
        exact hnext

/-- **A contract that only replies** passes the gate. -/
theorem passes_of_replies (hinit : ∀ x, Raises (initHandler x) ErrorCode)
    (hprocess : ∀ x, Raises (processHandler x) ErrorCode)
    (hlength : ∀ b, Kept b → b.length + 8 ≤ 2 ^ 17)
    (hdeploys : ∀ x, Ensures (initHandler x) fun out => ∃ next, Kept next ∧ out = reply next [] [])
    (hreplies : ∀ x, Kept x.state → Ensures (processHandler x) fun out => ∃ next result intents,
      Kept next ∧ Replies x result intents ∧ out = reply next result intents) :
    Passes ⟨fun x => orFailure (initHandler x), fun x => orFailure (processHandler x)⟩ where
  init_ok b x hx hmode hdeploy := by
    apply exists_outputLen_orFailure (iff_of_true hdeploy rfl) (hinit x)
    intro out hout
    obtain ⟨next, hkept, rfl⟩ := hdeploys x out hout
    exact acceptable_reply hmode (hlength next hkept) (Nat.zero_le _) (Nat.zero_le _) nofun
      ⟨hdeploy, rfl, rfl, rfl⟩
  process_ok start calls state hrun b x hx hstate hmode hdeploy := by
    have hkept := kept_of_runs hinit hdeploys hreplies hrun
    apply exists_outputLen_orFailure (iff_of_false hdeploy Bool.false_ne_true) (hprocess x)
    intro out hout
    obtain ⟨next, result, intents, hnext, h, rfl⟩ := hreplies x (hstate ▸ hkept) out hout
    exact acceptable_reply hmode (hlength next hnext) h.result_length h.intents_length h.intents_ok
      ⟨hdeploy, h.result_ok, fun _ hno => absurd hno h.methodId_ne, fun _ => rfl⟩

end

end AvmSdk.Contracts
