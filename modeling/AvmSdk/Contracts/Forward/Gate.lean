import AvmSdk.Contracts.Forward.Deliveries
import AvmSdk.Contracts.Forward.Versions
import AvmSdk.Contracts.Gate

/-!
# What the gate takes from the forwarding contracts

Contract A and contract B do not look at every address and at every method that the gate of the guest
crate looks at, so that some of their answers are lost: the host gets nothing, and the account stays as
it was.

* `Act.Lost`, `contractA_gate_iff`: contract A loses what it sends to no account, and a callback in the
  upgrade method.
* `contractB_gate_iff`: contract B loses what it is asked for in the upgrade method.
-/

namespace AvmSdk.Forward

open Wire Sdk Contracts

section

variable [Target] {x : MessageInput} {out : MessageOutput} {r : Record} {v : Version}
  {owner : Bytes32} {act : Act}

omit [Target] in
/-- The body of a message is a part of it. -/
theorem length_body_le (m : CanonicalMessage) : m.body.length + 176 ≤ m.serialize.length := by
  cases m with
  | internal m =>
      show m.body.length + 176 ≤ (m.header.toBytes ++ m.sections.toBytes).length
      rw [List.length_append, InternalHeader.length_toBytes, InternalSections.toBytes]
      simp only [List.length_append, InternalMessage.sections]
      omega
  | external m =>
      show m.body.length + 176 ≤ (m.header.toBytes ++ (m.extra.bytes ++ (m.body ++ m.signature))).length
      rw [List.length_append, ExternalHeader.length_toBytes]
      simp only [List.length_append]
      omega

omit [Target] in
/-- The state and the body are parts of a frame. -/
theorem length_state_body_le (x : MessageInput) :
    x.state.length + x.message.body.length + 450 ≤ x.serialize.length := by
  have hbody := length_body_le x.message
  rw [MessageInput.serialize, MessageFrame.length_toBytes]
  dsimp only [MessageInput.frame]
  omega

omit [Target] in
/-- A success that does not upgrade passes the checks of its context, unless an upgrade was asked
for. -/
theorem answers_iff (hplain : ¬ x.message.isDeploy) (hstatus : out.statusCode = 0)
    (hresult : x.message.hasCallbackRequest ∨ out.callbackResultBody = [])
    (hupgrade : out.codeUpgradeIntent = none) :
    out.Answers x.message false ↔ x.message.methodId ≠ codeUpgradeMethodId := by
  constructor
  · rintro ⟨-, -, hrequired, -⟩ hmethod
    have hsome := hrequired hstatus hmethod
    rw [hupgrade] at hsome
    cases hsome
  · exact fun hmethod => ⟨hplain, hresult, fun _ h => absurd h hmethod, fun _ => hupgrade⟩

/-! ## Contract A -/

/-- What an act of contract A loses at the gate. -/
def Act.Lost (x : MessageInput) : Act → Prop
  | .forward args => isZeroAddress args.destination
  | .deploy args _ => isZeroAddress args.destination
  | .receipt _ => x.message.methodId = codeUpgradeMethodId
  | _ => False

omit [Target] in
/-- The intent of a forward is in shape unless it goes to no account. -/
theorem shaped_forwarded_iff {args : ForwardArgs} {fee : U128} {body : Bytes}
    (hbody : body.length < 2 ^ 32) :
    (forwarded args fee body).Shaped ↔ ¬ isZeroAddress args.destination := by
  refine ⟨fun h => h.destination_ok, fun h => ⟨h, ?_, ?_, hbody⟩⟩
  · show 2 < 2 ^ 16
    decide
  · show ([0, extraCurrencyId] : List U32).Pairwise (· < ·)
    decide

omit [Target] in
/-- An act sends at most one message, of the one call that there is. -/
theorem Act.sends_cases (act : Act) (v : Version) (x : MessageInput) :
    act.sends v x = [] ∨ ∃ intent, act.sends v x = [intent] ∧ intent.inputIndex = 0 := by
  cases act with
  | forward => exact .inr ⟨_, rfl, rfl⟩
  | deploy => exact .inr ⟨_, rfl, rfl⟩
  | _ => exact .inl rfl

omit [Target] in
/-- An act asks for at most one callback, of the message that it sends. -/
theorem Act.requests_cases (act : Act) : act.requests = [] ∨
    ∃ args, act = .forward args ∧ args.callbackMethodId ≠ 0 ∧
      act.requests = [⟨0, args.callbackMethodId⟩] := by
  cases act with
  | forward args =>
      by_cases hzero : args.callbackMethodId = 0
      · exact .inl (if_neg (not_not.mpr hzero))
      · exact .inr ⟨args, rfl, hzero, if_pos hzero⟩
  | _ => exact .inl rfl

omit [Target] in
/-- The messages of an act, and the callbacks it asks for. -/
theorem shaped_output_iff (hmode : x.requiredStateOutputMode = .fullReplace) :
    (act.output v x r).Shaped (some x.requiredStateOutputMode) ↔
      ∀ intent ∈ act.sends v x, intent.Shaped := by
  constructor
  · exact fun h => h.outboundIntents_ok
  · intro hsends
    have hlength : (act.sends v x).length < 2 ^ 32 ∧
        ∀ intent ∈ act.sends v x, intent.inputIndex = 0 := by
      rcases act.sends_cases v x with hnone | ⟨intent, hone, hindex⟩
      · rw [hnone]
        exact ⟨by decide, List.forall_mem_nil _⟩
      · rw [hone]
        exact ⟨by simp, List.forall_mem_singleton.mpr hindex⟩
    have hcallbacks : ShapedCallbacks (act.sends v x).length act.requests := by
      rcases act.requests_cases with hnone | ⟨args, rfl, hne, hone⟩
      · rw [hnone]
        exact ⟨List.forall_mem_nil _, List.forall_mem_nil _, List.nodup_nil⟩
      · rw [hone]
        exact ⟨List.forall_mem_singleton.mpr hne, List.forall_mem_singleton.mpr Nat.one_pos,
          List.nodup_singleton _⟩
    refine ⟨.inl rfl, fun _ => ⟨_, rfl, ?_⟩, fun hno => absurd rfl hno, ?_, hlength.1, hsends,
      Nat.two_pow_pos 32, List.forall_mem_nil _, hcallbacks, hlength.2, List.forall_mem_nil _⟩
    · rintro mode ⟨⟩
      exact hmode
    · rintro update ⟨⟩
      trivial

/-- The messages of an act are hardly longer than the message that asks for it. -/
theorem length_sends_le (hasks : Asks owner x v act) :
    (counted 4 OutboundIntent.toBytes (act.sends v x)).length ≤ 158 + x.message.body.length := by
  rw [length_counted]
  cases hasks with
  | forward => simp [Act.sends, OutboundIntent.length_toBytes, forwarded, forwardExtra, outboundBody]
  | @deploy args body other carries =>
      have hbody : body.length ≤ x.message.body.length := by
        unfold Carries at carries
        split_ifs at carries
        · rw [carries.2, List.length_append, List.length_append]
          omega
        · rw [carries, List.length_append]
          omega
      simp [Act.sends, OutboundIntent.length_toBytes, forwarded, forwardExtra]
      omega
  | _ =>
      simp [Act.sends]
      omega

/-- The answer is no longer than the message. -/
theorem length_output_le (hstate : x.state = r.encode) (hasks : Asks owner x v act) :
    (act.output v x r).toBytes.length ≤ x.serialize.length := by
  have hframe := length_state_body_le x
  rw [hstate, r.length_encode] at hframe
  have hsends := length_sends_le hasks
  have hrequests : act.requests.length ≤ 1 := by
    rcases act.requests_cases with hnone | ⟨args, -, -, hone⟩
    · rw [hnone]
      exact Nat.zero_le 1
    · rw [hone]
      exact le_rfl
  have hupgrade : (if (act.output v x r).codeUpgradeIntent.isSome then 64 else 0) ≤ 64 := by
    split_ifs <;> decide
  have hstates : stateBytes = 72 := rfl
  have hupdate : (act.output v x r).stateUpdate.elim 0 (fun u => u.toBytes.length) = 80 := by
    show (StateUpdate.fullReplace (act.next r).encode).toBytes.length = 80
    rw [StateUpdate.length_toBytes, StateUpdate.payload, length_lengthPrefixed,
      (act.next r).length_encode, hstates]
  have hlength : (act.output v x r).toBytes.length = 9 + 80 + 4 + 0 +
      (counted 4 OutboundIntent.toBytes (act.sends v x)).length + 4 + act.requests.length * 12 + 4 +
        (if (act.output v x r).codeUpgradeIntent.isSome then 64 else 0) := by
    rw [MessageOutput.length_toBytes, hupdate]
    rfl
  omega

/-- An act that is asked for is in the upgrade method exactly if it upgrades, callbacks apart. -/
theorem answers_output_iff (hplain : ¬ x.message.isDeploy) (hasks : Asks owner x v act) :
    (act.output v x r).Answers x.message false ↔
      ((∃ header, act = .receipt header) → x.message.methodId ≠ codeUpgradeMethodId) := by
  have hversion : versionMethodId ≠ codeUpgradeMethodId := by decide
  cases hasks with
  | upgrade plain hmethod =>
      refine iff_of_true ⟨hplain, .inr rfl, fun _ _ => rfl, fun hno => absurd hmethod hno⟩ ?_
      rintro ⟨header, hno⟩
      cases hno
  | @receipt _ _ header =>
      rw [answers_iff hplain rfl (.inr rfl) rfl]
      exact ⟨fun h _ => h, fun h => h ⟨header, rfl⟩⟩
  | probe _ hmethod =>
      rw [answers_iff hplain rfl (.inr rfl) rfl, hmethod]
      exact iff_of_true hversion fun _ => hversion
  | paid _ hmethod =>
      rw [answers_iff hplain rfl (.inr rfl) rfl, hmethod]
      exact iff_of_true hversion fun _ => hversion
  | forward other =>
      rw [answers_iff hplain rfl (.inr rfl) rfl]
      exact iff_of_true other.not_upgrade fun _ => other.not_upgrade
  | deploy other =>
      rw [answers_iff hplain rfl (.inr rfl) rfl]
      exact iff_of_true other.not_upgrade fun _ => other.not_upgrade

/-- What is lost of an act that is asked for. -/
theorem gate_output_iff (hlength : x.serialize.length ≤ usizeMax)
    (hmode : x.requiredStateOutputMode = .fullReplace) (hplain : ¬ x.message.isDeploy)
    (hbody : x.message.body.length < 2 ^ 32) (hstate : x.state = r.encode)
    (hasks : Asks owner x v act) :
    (∃ n, messageOutputLenFor x false (act.output v x r) = .ok n) ↔ ¬ act.Lost x := by
  have hle := (length_output_le hstate hasks).trans hlength
  have hgate : (∃ n, messageOutputLenFor x false (act.output v x r) = .ok n) ↔
      (act.output v x r).Answers x.message false ∧ ∀ intent ∈ act.sends v x, intent.Shaped := by
    simp only [messageOutputLenFor_ok_iff, shaped_output_iff hmode]
    constructor
    · rintro ⟨n, hanswers, hsends, -⟩
      exact ⟨hanswers, hsends⟩
    · rintro ⟨hanswers, hsends⟩
      exact ⟨_, hanswers, hsends, rfl, hle⟩
  rw [hgate, answers_output_iff hplain hasks]
  have hshort (args : ForwardArgs) (fee : U128) (body : Bytes) (hlt : body.length < 2 ^ 32) :
      (∀ intent ∈ [forwarded args fee body], intent.Shaped) ↔ ¬ isZeroAddress args.destination := by
    rw [List.forall_mem_singleton]
    exact shaped_forwarded_iff hlt
  have hother {A : Prop} (hact : ∀ header, act ≠ .receipt header) :
      (((∃ header, act = .receipt header) → A) ∧ ∀ intent ∈ act.sends v x, intent.Shaped) ↔
        ∀ intent ∈ act.sends v x, intent.Shaped := by
    refine and_iff_right ?_
    rintro ⟨header, hno⟩
    exact absurd hno (hact header)
  cases hasks with
  | receipt =>
      exact ⟨fun h => h.1 ⟨_, rfl⟩, fun h => ⟨fun _ => h, List.forall_mem_nil _⟩⟩
  | forward =>
      rw [hother (by rintro _ ⟨⟩)]
      exact hshort _ _ _ (by decide)
  | @deploy args body other carries =>
      have hlt : body.length < 2 ^ 32 := by
        unfold Carries at carries
        split_ifs at carries
        · have hlen := carries.1
          rw [List.length_append] at hlen
          omega
        · rw [carries, List.length_append] at hbody
          omega
      rw [hother (by rintro _ ⟨⟩)]
      exact hshort _ _ _ hlt
  | _ =>
      rw [hother (by rintro _ ⟨⟩)]
      exact iff_of_true (List.forall_mem_nil _) fun hno => hno

omit [Target] in
/-- The body of a well-formed message has a length. -/
theorem length_body_lt [Target] (hwf : x.WellFormed) : x.message.body.length < 2 ^ 32 := by
  have hmessage := hwf.message_ok
  cases hm : x.message with
  | internal m =>
      rw [hm] at hmessage
      exact hmessage.body_length
  | external m =>
      rw [hm] at hmessage
      exact hmessage.body_length

/-- **Contract A at the gate.** A success is lost exactly if it sends to no account, or if it is a
callback in the upgrade method; every error code passes. -/
theorem contractA_gate_iff (hwf : x.WellFormed) (hlength : x.serialize.length ≤ usizeMax)
    (hmode : x.requiredStateOutputMode = .fullReplace) (hplain : ¬ x.message.isDeploy) :
    (∃ n, messageOutputLenFor x false ((contractA owner v).processMessage x) = .ok n) ↔
      ∀ r act, x.state = r.encode → Asks owner x v act → act.Allowed r → ¬ act.Lost x := by
  have hanswer : (contractA owner v).processMessage x = orFailure (v.process owner x) := rfl
  have hgate {r : Record} {act : Act} (hstate : x.state = r.encode) (hasks : Asks owner x v act) :=
    gate_output_iff hlength hmode hplain (length_body_lt hwf) hstate hasks
  rw [hanswer]
  cases hresult : v.process owner x with
  | error e =>
      have hcode : ErrorCode e := Version.raises_process e hresult
      refine iff_of_true (exists_outputLen_failure hcode (iff_of_false hplain Bool.false_ne_true)) ?_
      intro r act hstate hasks hallowed
      have hok := Version.process_ok_iff.mpr ⟨r, act, hstate, hasks, hallowed, rfl⟩
      rw [hresult] at hok
      cases hok
  | ok out =>
      rw [orFailure_ok]
      constructor
      · intro hpasses r act hstate hasks hallowed
        have hok := Version.process_ok_iff.mpr ⟨r, act, hstate, hasks, hallowed, rfl⟩
        rw [hresult, Except.ok.injEq] at hok
        rw [hok] at hpasses
        exact (hgate hstate hasks).mp hpasses
      · intro hkept
        obtain ⟨r, act, hstate, hasks, hallowed, rfl⟩ := Version.process_ok_iff.mp hresult
        exact (hgate hstate hasks).mpr (hkept r act hstate hasks hallowed)

end

/-- A forward to no account. -/
def sampleLostArgs : ForwardArgs := ⟨⟨zeros 32, zeros 32⟩, 7, 8⟩

/-- The call that asks for it. -/
def sampleLostInput : MessageInput :=
  sampleCall (sampleAddress 1).dappId false Record.empty.encode 3 sampleLostArgs.toBytes

/-- A forward to no account is lost. -/
theorem contractA_gate_iff_sample :
    letI := Target.wasm32
    ¬ ∃ n, messageOutputLenFor sampleLostInput false
      ((contractA fixturePackageOwnerPubkey .v1).processMessage sampleLostInput) = .ok n := by
  let _ := Target.wasm32
  have hargs : sampleLostArgs.toBytes.length < 2 ^ 31 := by
    rw [ForwardArgs.length_toBytes]
    decide
  have hwf : sampleLostInput.WellFormed :=
    sampleCall_wellFormed (by decide) hargs (length_encode_lt _)
  have hasks : Asks fixturePackageOwnerPubkey sampleLostInput .v1 (.forward sampleLostArgs) :=
    .forward ⟨fun hno => hno, by decide, by decide, _, rfl⟩ rfl nofun
  have hlength : sampleLostInput.serialize.length ≤ usizeMax := le_usizeMax (by decide +kernel)
  have hlost : isZeroAddress sampleLostArgs.destination := by decide
  rw [contractA_gate_iff hwf hlength rfl (by decide)]
  exact fun hkept => hkept .empty _ rfl hasks ⟨by decide, rfl, rfl⟩ hlost

namespace ContractB

section

variable [Target] {x : MessageInput} {out : MessageOutput} {s : Inbox} {act : Taken}
  {es : List EventIntent}

/-! ## Contract B -/

omit [Target] in
/-- The two events of a delivery are short. -/
theorem brief_causalEvents (out : MessageOutput) {destination : AccountAddress} {n : U64}
    (h : causalEvents destination n = .ok es) :
    es.length = 2 ∧ Reports { out with eventIntents := es } := by
  unfold causalEvents at h
  obtain ⟨external, hexternal, h⟩ := bind_ok_iff.mp h
  obtain ⟨«internal», hinternal, h⟩ := bind_ok_iff.mp h
  rw [mapError_ok_iff] at hexternal hinternal
  rw [pure_ok_iff] at h
  subst h
  have hcount : (toLe n).length ≤ 32 := by
    rw [length_toLe]
    decide
  refine ⟨rfl, List.forall_mem_cons.mpr ⟨⟨?_, rfl⟩, List.forall_mem_singleton.mpr ⟨?_, rfl⟩⟩⟩
  · exact briefEvent_of_fields hexternal (by simp) (by decide) le_rfl
      (List.forall_mem_singleton.mpr destination.accountId.property.le)
  · exact briefEvent_of_fields hinternal (by simp) (by decide) le_rfl
      (List.forall_mem_singleton.mpr hcount)

/-- A success with a short state, short messages and short events passes, if the context allows it. -/
theorem gate_iff_answers {state : Bytes} (hupdate : out.stateUpdate = some (.fullReplace state))
    (hstate : state.length = stateBytes) (hstatus : out.statusCode = 0)
    (hmode : x.requiredStateOutputMode = .fullReplace) (hresult : out.callbackResultBody.length ≤ 16)
    (hsends : out.outboundIntents.length ≤ 2) (hintents : ∀ intent ∈ out.outboundIntents,
      intent.Shaped ∧ intent.inputIndex = 0 ∧ intent.toBytes.length ≤ 2 ^ 24)
    (hrequests : out.callbackIntents = []) (hevents : out.eventIntents.length ≤ 2)
    (hreports : Reports out) {isInit : Bool} :
    (∃ n, messageOutputLenFor x isInit out = .ok n) ↔ out.Answers x.message isInit := by
  have hshaped : out.Shaped (some x.requiredStateOutputMode) := by
    refine ⟨.inl hstatus, fun _ => ⟨_, hupdate, ?_⟩, fun hno => absurd hstatus hno, ?_, ?_,
      fun i hi => (hintents i hi).1, ?_, fun e he => (hreports e he).1.shaped, ?_,
      fun i hi => (hintents i hi).2.1, fun e he => (hreports e he).2⟩
    · rintro mode ⟨⟩
      exact hmode
    · rw [hupdate]
      rintro _ ⟨⟩
      trivial
    · exact hsends.trans_lt (by decide)
    · exact hevents.trans_lt (by decide)
    · rw [hrequests]
      exact ⟨List.forall_mem_nil _, List.forall_mem_nil _, List.nodup_nil⟩
  have hle : out.toBytes.length ≤ usizeMax := by
    have hsent := length_counted_le hsends fun i hi => (hintents i hi).2.2
    have htold := length_counted_le hevents fun e he => (hreports e he).1.length_le
    have hstates : stateBytes = 128 := rfl
    have hupgrade : (if out.codeUpgradeIntent.isSome then 64 else 0) ≤ 64 := by split_ifs <;> decide
    apply le_usizeMax
    rw [MessageOutput.length_toBytes, hupdate, hrequests, Option.elim_some,
      StateUpdate.length_toBytes, StateUpdate.payload, length_lengthPrefixed, hstate, hstates]
    simp only [List.length_nil]
    omega
  constructor
  · rintro ⟨n, hn⟩
    exact (messageOutputLenFor_ok_iff.mp hn).1
  · exact fun hanswers => ⟨_, messageOutputLenFor_ok_iff.mpr ⟨hanswers, hshaped, rfl, hle⟩⟩

/-- The sender of a message is an account. -/
theorem sender_ne_zero (hwf : x.WellFormed) {source : AccountAddress}
    (hcaller : x.caller = .internal source) : ¬ isZeroAddress source := by
  have hmessage := hwf.message_ok
  have hsender := hwf.caller_eq
  cases hm : x.message with
  | internal m =>
      rw [hm] at hmessage hsender
      rw [hcaller] at hsender
      rw [Caller.internal.inj hsender]
      exact hmessage.source_ne_zero
  | external m =>
      rw [hm, hcaller] at hsender
      cases hsender

/-- The balance can be sent. -/
theorem shaped_balance (hwf : x.WellFormed) {source : AccountAddress}
    (hcaller : x.caller = .internal source) (method : U64) :
    (OutboundIntent.mk 0 source 0 x.extra.items method []).Shaped ∧
      (OutboundIntent.mk 0 source 0 x.extra.items method []).toBytes.length ≤ 2 ^ 24 := by
  have hextra : x.extra.WellFormed := hwf.frame_ok.extra_ok
  have hcount := x.extra.count.isLt
  have hitems := hextra.items_length
  have hempty : ([] : Bytes).length < 2 ^ 32 := by decide
  refine ⟨⟨sender_ne_zero hwf hcaller, ?_, hextra.ascending, hempty⟩, ?_⟩
  · exact hitems.trans_lt hcount
  · rw [OutboundIntent.length_toBytes, hitems]
    simp only [List.length_nil]
    omega

/-- What is answered to an act that is asked for. -/
theorem gate_output_iff (hwf : x.WellFormed) (hmode : x.requiredStateOutputMode = .fullReplace)
    (hplain : ¬ x.message.isDeploy) (hasks : Asks x act) (hes : act.events x s = .ok es) :
    (∃ n, messageOutputLenFor x false (act.output x s es) = .ok n) ↔
      x.message.methodId ≠ codeUpgradeMethodId := by
  have hresult : act.result.length ≤ 16 ∧ (x.message.hasCallbackRequest ∨ act.result = []) := by
    cases hasks with
    | delivery brings => exact ⟨le_rfl, .inl brings.request⟩
    | drain brings => exact ⟨le_rfl, .inl brings.request⟩
    | read => exact ⟨Nat.zero_le _, .inr rfl⟩
  have hevents : es.length ≤ 2 ∧ Reports (act.output x s es) := by
    cases hasks with
    | delivery =>
        obtain ⟨htwo, hreports⟩ := brief_causalEvents (.failure 0) hes
        exact ⟨htwo.le, hreports⟩
    | drain =>
        cases hes
        exact ⟨Nat.zero_le 2, List.forall_mem_nil _⟩
    | read =>
        cases hes
        exact ⟨Nat.zero_le 2, List.forall_mem_nil _⟩
  have hsends : (act.sends x).length ≤ 2 ∧ ∀ intent ∈ act.sends x,
      intent.Shaped ∧ intent.inputIndex = 0 ∧ intent.toBytes.length ≤ 2 ^ 24 := by
    cases hasks with
    | drain brings =>
        obtain ⟨hshaped, hlength⟩ := shaped_balance hwf brings.caller payoutMethodId
        exact ⟨Nat.le_succ 1, List.forall_mem_singleton.mpr ⟨hshaped, rfl, hlength⟩⟩
    | delivery => exact ⟨Nat.zero_le 2, List.forall_mem_nil _⟩
    | read => exact ⟨Nat.zero_le 2, List.forall_mem_nil _⟩
  rw [gate_iff_answers rfl (act.next s).length_encode rfl hmode hresult.1 hsends.1 hsends.2 rfl
    hevents.1 hevents.2]
  exact answers_iff hplain rfl hresult.2 rfl

/-- **Contract B at the gate.** It loses exactly what it accepts in the upgrade method. -/
theorem contractB_gate_iff (hwf : x.WellFormed) (hmode : x.requiredStateOutputMode = .fullReplace)
    (hplain : ¬ x.message.isDeploy) :
    (∃ n, messageOutputLenFor x false (contractB.processMessage x) = .ok n) ↔
      ((∃ s act, x.state = s.encode ∧ Asks x act ∧ act.Allowed s) →
        x.message.methodId ≠ codeUpgradeMethodId) := by
  have hanswer : contractB.processMessage x = orFailure (process x) := rfl
  rw [hanswer]
  cases hresult : process x with
  | error e =>
      have hcode : ErrorCode e := raises_process e hresult
      refine iff_of_true (exists_outputLen_failure hcode (iff_of_false hplain Bool.false_ne_true)) ?_
      rintro ⟨s, act, hstate, hasks, hallowed⟩
      obtain ⟨es, hes⟩ := exists_events x s act
      have hok := process_ok_iff.mpr ⟨s, act, es, hstate, hasks, hallowed, hes, rfl⟩
      rw [hresult] at hok
      cases hok
  | ok out =>
      obtain ⟨s, act, es, hstate, hasks, hallowed, hes, rfl⟩ := process_ok_iff.mp hresult
      rw [orFailure_ok, gate_output_iff hwf hmode hplain hasks hes]
      exact ⟨fun h _ => h, fun h => h ⟨s, act, hstate, hasks, hallowed⟩⟩

end

/-- A delivery is not lost. -/
theorem contractB_gate_iff_sample :
    letI := Target.wasm32
    ∃ n, messageOutputLenFor (sampleDelivery .empty) false
      (contractB.processMessage (sampleDelivery .empty)) = .ok n := by
  let _ := Target.wasm32
  have hmethod : (sampleDelivery .empty).message.methodId ≠ codeUpgradeMethodId := by decide
  exact (contractB_gate_iff sampleDelivery_wellFormed rfl (by decide)).mpr fun _ => hmethod

end ContractB

end AvmSdk.Forward
