import AvmSdk.Contracts.Common
import AvmSdk.Sdk.Input.Signed

/-!
# Handlers with steps

A contract whose message handler decodes a state, makes a step and stores the result, with an event
and perhaps one transfer.

* `stepMachine`: the machine of the steps. `implements_stepMachine`: what a handler must satisfy so
  that its contract computes the machine.
* `starts_of_announced`, `runs_of_answer`: runs from the answers of a contract.
* `holding`: what an account with principal and fuel holds. `returns_returnedCall`: an answer that
  comes back to it.
* `Performs`, `Ignored`: what a call does, an accepted step or nothing. `moves_cases`.
* `Call.gained`: what a call brings to the account. `runs_balance`: if each step keeps the books,
  so does every run.
-/

namespace AvmSdk.Contracts

open Wire Sdk

section

variable [Target] {S : Type}

/-- The machine of the steps of a handler. -/
def stepMachine (encode : S → Bytes) (Stored : S → Prop) (Deployed : MessageInput → S → Prop)
    (Step : MessageInput → S → S → Option Transfer → Prop) : Machine S where
  encode := encode
  Stored := Stored
  Deployed := Deployed
  Accepts x s t out := ∃ o e, Step x s t o ∧ out = answer (encode t) e o

variable {encode : S → Bytes} {Stored : S → Prop} {Deployed : MessageInput → S → Prop}
  {Step : MessageInput → S → S → Option Transfer → Prop}
  {initHandler processHandler : MessageInput → Except U32 MessageOutput}

/-- **A handler with steps** makes a contract that computes their machine. -/
theorem implements_stepMachine
    (hinit : ∀ x, Raises (initHandler x) (· ≠ 0))
    (hdeployed : ∀ x out, initHandler x = .ok out →
      ∃ s e, Stored s ∧ Deployed x s ∧ out = announced (encode s) e)
    (hstored : ∀ x s t o, Stored s → Step x s t o → Stored t)
    (hprocess : ∀ x s, Stored s → x.state = encode s → Raises (processHandler x) (· ≠ 0))
    (hstep : ∀ x s out, Stored s → x.state = encode s → processHandler x = .ok out →
      ∃ t o e, Step x s t o ∧ out = answer (encode t) e o) :
    (⟨fun x => orFailure (initHandler x), fun x => orFailure (processHandler x)⟩ : Contract).Implements
      (stepMachine encode Stored Deployed Step) where
  init_ok x _ hstatus := by
    obtain ⟨out, hout⟩ := exists_ok_of_statusCode (hinit x) hstatus
    obtain ⟨s, e, hs, hdeploy, rfl⟩ := hdeployed x out hout
    refine ⟨s, hs, hdeploy, ?_⟩
    dsimp only
    rw [hout]
    rfl
  stored x s t out hs haccepts := by
    obtain ⟨o, e, hstep, -⟩ := haccepts
    exact hstored x s t o hs hstep
  accepted x s _ hs hstate hstatus := by
    obtain ⟨out, hout⟩ := exists_ok_of_statusCode (hprocess x s hs hstate) hstatus
    obtain ⟨t, o, e, hst, rfl⟩ := hstep x s out hs hstate hout
    dsimp only
    rw [hout, orFailure_ok, nextState_answer]
    exact ⟨t, ⟨o, e, hst, rfl⟩, rfl⟩
  refused x s hs hstate hstatus := by
    dsimp only at hstatus ⊢
    cases hresult : processHandler x with
    | ok out =>
        obtain ⟨t, o, e, -, rfl⟩ := hstep x s out hs hstate hresult
        rw [hresult, orFailure_ok, statusCode_answer] at hstatus
        exact absurd rfl hstatus
    | error e => rfl

/-! ## Accounts that go on -/

section

variable {contract : Contract} {start x : MessageInput} {calls : List Call}
  {state next : Bytes} {e : EventIntent} {o : Option Transfer}

/-- An account that is deployed with an answer. -/
theorem starts_of_announced (hwf : start.WellFormed) (hout : contract.init start = announced next e) :
    contract.Runs start [] next := by
  refine .start ⟨hwf, ?_, ?_⟩
  · rw [hout]
    rfl
  · rw [hout]
    rfl

/-- A run goes on with an answer. -/
theorem runs_of_answer (hrun : contract.Runs start calls state) (hwf : x.WellFormed)
    (hstate : x.state = state) (hout : contract.processMessage x = answer next e o) :
    contract.Runs start (calls ++ [⟨x, contract.processMessage x⟩]) next := by
  refine hrun.snoc ⟨hwf, hstate, rfl, ?_⟩
  rw [hout, nextState_answer]

omit [Target] in
/-- A call with an answer is accepted. -/
theorem accepted_of_answer (hout : contract.processMessage x = answer next e o) :
    Call.Accepted ⟨x, contract.processMessage x⟩ := by
  show (contract.processMessage x).statusCode = 0
  rw [hout, statusCode_answer]

end

/-! ## What an account holds -/

/-- An account that holds some principal and some fuel. -/
def holding (held fuel : U128) : CurrencyAmounts :=
  .ofEntries [⟨principalCurrencyId, held⟩, ⟨shellCurrencyId, fuel⟩]

/-- Its entries, -/
theorem items_holding (held fuel : U128) :
    (holding held fuel).items = [⟨principalCurrencyId, held⟩, ⟨shellCurrencyId, fuel⟩] :=
  CurrencyAmounts.items_ofEntries (Nat.lt_of_sub_eq_succ rfl)

/-- which ascend, -/
theorem wellFormed_holding (held fuel : U128) : (holding held fuel).WellFormed := by
  have hids : [principalCurrencyId, shellCurrencyId].Pairwise (· < ·) := by decide
  exact CurrencyAmounts.wellFormed_ofEntries (Nat.lt_of_sub_eq_succ rfl) hids

/-- and its principal. -/
theorem principal_holding (held fuel : U128) : principal (holding held fuel) = held := by
  rw [principal, items_holding]
  rfl

/-! ## Answers that come back -/

section

variable {context : ExecutionContext} {balance : CurrencyAmounts} {state : Bytes}
  {call : ReturnedCall} {c : Call}

omit [Target] in
/-- A callback returns to the account, -/
theorem returns_returnedCall : Returns (internalInput context balance state call.message) call.source
    call.message call.header :=
  ⟨call.isCallback, rfl, rfl, rfl⟩

omit [Target] in
/-- with the header of the answer, -/
theorem acceptedCallback_of_returned (haccepted : c.Accepted)
    (hmessage : c.input.message = .internal call.message) :
    c.AcceptedCallback ∧ call.header ∈ c.input.message.callbackHeader := by
  rw [Call.AcceptedCallback, hmessage]
  exact ⟨⟨haccepted, call.isCallback⟩, rfl⟩

omit [Target] in
/-- and is a receipt if it reports a success, -/
theorem acceptedReceipt_of_returned (haccepted : c.Accepted)
    (hmessage : c.input.message = .internal call.message) (hstatus : call.statusCode = 0) :
    c.AcceptedReceipt := by
  obtain ⟨hcallback, hheader⟩ := acceptedCallback_of_returned haccepted hmessage
  exact ⟨hcallback, call.header, hheader, hstatus⟩

omit [Target] in
/-- a bounce if it reports a failure. -/
theorem acceptedBounce_of_returned (haccepted : c.Accepted)
    (hmessage : c.input.message = .internal call.message) (hstatus : call.statusCode ≠ 0) :
    c.AcceptedBounce := by
  obtain ⟨hcallback, hheader⟩ := acceptedCallback_of_returned haccepted hmessage
  exact ⟨hcallback, call.header, hheader, hstatus⟩

end

/-! ## Calls and steps -/

/-- The call was accepted, as a step of the handler that perhaps emits a transfer. -/
structure Performs (encode : S → Bytes) (Step : MessageInput → S → S → Option Transfer → Prop)
    (s : S) (c : Call) (t : S) (o : Option Transfer) : Prop where
  wellFormed : c.input.WellFormed
  accepted : c.Accepted
  step : Step c.input s t o
  outbound : c.output.outboundIntents = (o.map Transfer.intent).toList
  callbacks : c.output.callbackIntents =
    (o.map fun transfer => CallbackIntent.mk 0 transfer.handler).toList
  before : c.before = encode s
  after : c.after = encode t

/-- The call was refused: it reports an error, and sends nothing. -/
structure Ignored (encode : S → Bytes) (s : S) (c : Call) : Prop where
  wellFormed : c.input.WellFormed
  refused : ¬ c.Accepted
  outbound : c.output.outboundIntents = []
  before : c.before = encode s
  after : c.after = encode s

/-- **A call** is a step, or is refused. -/
theorem moves_cases {s t : S} {c : Call}
    (h : (stepMachine encode Stored Deployed Step).Moves s c t) :
    (∃ o, Performs encode Step s c t o) ∨ t = s ∧ Ignored encode s c := by
  cases h with
  | accepted hwf hbefore haccepted haccepts hafter =>
      obtain ⟨o, e, hstep, hout⟩ := haccepts
      exact .inl ⟨o, hwf, haccepted, hstep, by rw [hout, outboundIntents_answer],
        by rw [hout, callbackIntents_answer], hbefore, hafter⟩
  | refused hwf hbefore hrefused hout =>
      refine .inr ⟨rfl, hwf, hrefused, by rw [hout]; rfl, hbefore, ?_⟩
      rw [Call.after, hout]
      exact hbefore

end

/-! ## Calls of a run -/

section

variable [Target] {S : Type} {encode : S → Bytes} {Stored : S → Prop}
  {Deployed : MessageInput → S → Prop}
  {Step : MessageInput → S → S → Option Transfer → Prop} {contract : Contract}
  {start : MessageInput} {calls : List Call} {s : S}

/-- **Every call of a run** is a step from a stored state to a stored state, or is refused. -/
theorem runs_call (himpl : contract.Implements (stepMachine encode Stored Deployed Step))
    (hrun : (stepMachine encode Stored Deployed Step).Runs start calls s) {c : Call}
    (hc : c ∈ calls) :
    ∃ es t u, (stepMachine encode Stored Deployed Step).Runs start es t ∧ Stored t ∧ Stored u ∧
      ((∃ o, Performs encode Step t c u o) ∨ u = t ∧ Ignored encode t c) := by
  obtain ⟨pre, post, rfl⟩ := List.append_of_mem hc
  obtain ⟨t, u, hpre, hmove⟩ := hrun.before
  exact ⟨pre, t, u, hpre, himpl.stored_of_runs hpre, himpl.stored_of_runs (hpre.snoc hmove),
    moves_cases hmove⟩

end

/-! ## What a call brings -/

/-- A call of a method is not a call of another one. -/
theorem not_acceptedMethod_of_asks {method method' : U64} {actor : Bytes32} {c : Call}
    (ask : Asks c.input method actor) (h : method ≠ method') : ¬ c.AcceptedMethod method' :=
  fun hc => h (ask.method_eq.symm.trans hc.2.2)

/-- A callback is not a call of a method. -/
theorem not_acceptedMethod_of_returns {method : U64} {source : AccountAddress}
    {message : InternalMessage} {h : CallbackHeader} {c : Call}
    (ret : Returns c.input source message h) : ¬ c.AcceptedMethod method :=
  fun hc => hc.2.1 ret.is_callback

section

variable [Target]

/-- What a call brings: funds with the method that takes them, or a payment that came back. -/
def gained (method : U64) (id : U32) (c : Call) : ℕ :=
  (if c.AcceptedMethod method then c.attached id else 0) +
    if c.AcceptedBounce then c.attached id else 0

/-- What a transfer carries. -/
def carried (id : U32) (transfer : Option Transfer) : ℕ :=
  ((transfer.map Transfer.intent).toList.map fun intent => amountOf id intent.extra).sum

variable {method method' : U64} {id : U32} {c : Call}

/-- A refused call gains nothing. -/
theorem gained_of_refused (h : ¬ c.Accepted) : gained method id c = 0 := by
  have hmethod : ¬ c.AcceptedMethod method := fun hc => h hc.1
  have hbounce : ¬ c.AcceptedBounce := fun hc => h hc.1.1
  rw [gained, if_neg hmethod, if_neg hbounce]

/-- A call of a method brings its funds if the method takes them. -/
theorem gained_of_asks {actor : Bytes32} (h : c.Accepted) (ask : Asks c.input method' actor) :
    gained method id c = if method' = method then c.attached id else 0 := by
  have hbounce : ¬ c.AcceptedBounce := fun hc => ask.not_callback hc.1.2
  have hmethod : c.AcceptedMethod method ↔ method' = method := by
    rw [← ask.method_eq]
    exact ⟨fun hc => hc.2.2, fun heq => ⟨h, ask.not_callback, heq⟩⟩
  rw [gained, if_neg hbounce, Nat.add_zero]
  simp only [hmethod]

/-- A callback brings what it returns if it reports a failure. -/
theorem gained_of_returns {source : AccountAddress} {message : InternalMessage} {h : CallbackHeader}
    (haccepted : c.Accepted) (ret : Returns c.input source message h) :
    gained method id c = if h.statusCode = 0 then 0 else c.attached id := by
  have hmethod : ¬ c.AcceptedMethod method := not_acceptedMethod_of_returns ret
  have hheader : c.input.message.callbackHeader = some h := by
    rw [ret.message_eq]
    exact ret.header
  have hbounce : c.AcceptedBounce ↔ h.statusCode ≠ 0 := by
    unfold Call.AcceptedBounce
    rw [hheader]
    constructor
    · rintro ⟨-, h', ⟨⟩, hstatus⟩
      exact hstatus
    · exact fun hstatus => ⟨⟨haccepted, ret.is_callback⟩, h, rfl, hstatus⟩
  rw [gained, if_neg hmethod, Nat.zero_add]
  by_cases hstatus : h.statusCode = 0
  · rw [if_neg (fun hc => hbounce.mp hc hstatus), if_pos hstatus]
  · rw [if_pos (hbounce.mpr hstatus), if_neg hstatus]

/-- What the calls of a history bring, by the kinds of calls. -/
theorem sum_gained (method : U64) (id : U32) (calls : List Call) :
    (calls.map (gained method id)).sum =
      ((calls.filter (Call.AcceptedMethod method ·)).map (Call.attached id)).sum +
        ((calls.filter (Call.AcceptedBounce ·)).map (Call.attached id)).sum := by
  have hkind (p : Call → Prop) [DecidablePred p] :
      (calls.map fun c => if p c then c.attached id else 0).sum =
        ((calls.filter (p ·)).map (Call.attached id)).sum := by
    rw [List.sum_map_ite]
    simp
  rw [← hkind, ← hkind, ← List.sum_map_add]
  rfl

variable {S : Type} {encode : S → Bytes} {Stored : S → Prop} {Deployed : MessageInput → S → Prop}
  {Step : MessageInput → S → S → Option Transfer → Prop} {contract : Contract}
  {start : MessageInput} {calls : List Call} {s : S}

/-- **The books of a run.** If every step accounts for what it brings and sends, so does a run. -/
theorem runs_balance (method : U64) (id : U32) (worth : S → ℕ)
    (himpl : contract.Implements (stepMachine encode Stored Deployed Step))
    (hrun : (stepMachine encode Stored Deployed Step).Runs start calls s)
    (hstart : ∀ s, Stored s → Deployed start s → worth s = 0)
    (hstep : ∀ s c t o, Stored s → Performs encode Step s c t o →
      worth t + carried id o = worth s + gained method id c) :
    worth s + (calls.map (Call.sent id)).sum =
      ((calls.filter (Call.AcceptedMethod method ·)).map (Call.attached id)).sum +
        ((calls.filter (Call.AcceptedBounce ·)).map (Call.attached id)).sum := by
  rw [← sum_gained]
  refine hrun.balance worth (gained method id) (Call.sent id) (fun s hs => hstart s hs.1 hs.2)
    fun es s c t hrun hmove => ?_
  rcases moves_cases hmove with ⟨o, hperforms⟩ | ⟨rfl, hignored⟩
  · have hsent : c.sent id = carried id o := by
      rw [Call.sent, hperforms.outbound]
      rfl
    rw [hsent]
    exact hstep s c t o (himpl.stored_of_runs hrun) hperforms
  · have hsent : c.sent id = 0 := by
      rw [Call.sent, hignored.outbound]
      rfl
    rw [hsent, gained_of_refused hignored.refused]

end

end AvmSdk.Contracts
