import AvmSdk.Sdk.Input.Frame
import AvmSdk.Sdk.Runtime.Dispatch
import AvmSdk.Trace.Run
import Mathlib.Algebra.BigOperators.Group.List.Basic

/-!
# Accounts

A contract as its host runs it: an account holds the contract's state, a call hands the state to the
contract together with a message, a success replaces the state and a failure leaves it.

* `Call`: one call with its answer. `Contract.Runs contract start`: the runs of an account that was
  deployed with the input `start`, with the history of its calls.
* `Machine`: a transition system on decoded states; `Contract.Implements`: a contract that computes
  it, so that its runs are the runs of the machine (`Contract.Implements.runs`).
* `amountOf`: the amount of a currency in a list of entries. On a well-formed list it is the entry
  that `find` returns (`CurrencyAmounts.amountOf_eq`).
-/

namespace AvmSdk.Sdk

open Wire

/-! ## Calls -/

/-- The state after an answer. The contracts that are run this way answer a success with the whole
state and a failure with none. -/
def MessageOutput.nextState (output : MessageOutput) (state : Bytes) : Bytes :=
  match output.stateUpdate with
  | some (.fullReplace next) => next
  | _ => state

/-- One call of an account, with the answer of the contract. -/
structure Call where
  /-- What the contract was called with, the state of the account included. -/
  input : MessageInput
  /-- What it answered. -/
  output : MessageOutput

namespace Call

/-- The call succeeded. -/
def Accepted (c : Call) : Prop := c.output.statusCode = 0

instance : DecidablePred Accepted := fun _ => inferInstanceAs (Decidable (_ = _))

/-- The state before the call. -/
def before (c : Call) : Bytes := c.input.state

/-- The state after the call. -/
def after (c : Call) : Bytes := c.output.nextState c.input.state

/-- The call hands over a callback message that was accepted. -/
def AcceptedCallback (c : Call) : Prop := c.Accepted ∧ c.input.message.isCallback

instance : DecidablePred AcceptedCallback := fun _ => inferInstanceAs (Decidable (_ ∧ _))

/-- The call is of a method, by a message that is no callback, and was accepted. -/
def AcceptedMethod (method : U64) (c : Call) : Prop :=
  c.Accepted ∧ ¬ c.input.message.isCallback ∧ c.input.message.methodId = method

instance (method : U64) : DecidablePred (AcceptedMethod method) :=
  fun _ => inferInstanceAs (Decidable (_ ∧ _ ∧ _))

end Call

/-- The header of a callback message. -/
def CanonicalMessage.callbackHeader : CanonicalMessage → Option CallbackHeader
  | internal message => message.callback
  | external _ => none

/-- The logical time at which a message was created. -/
def CanonicalMessage.createdLt : CanonicalMessage → U64
  | internal message => message.createdLt
  | external _ => 0

/-- The call hands over an accepted callback that reports a success. -/
def Call.AcceptedReceipt (c : Call) : Prop :=
  c.AcceptedCallback ∧ ∃ h ∈ c.input.message.callbackHeader, h.statusCode = 0

instance : DecidablePred Call.AcceptedReceipt := fun _ => inferInstanceAs (Decidable (_ ∧ _))

/-- The call hands over an accepted callback that reports a failure. -/
def Call.AcceptedBounce (c : Call) : Prop :=
  c.AcceptedCallback ∧ ∃ h ∈ c.input.message.callbackHeader, h.statusCode ≠ 0

instance : DecidablePred Call.AcceptedBounce := fun _ => inferInstanceAs (Decidable (_ ∧ _))

/-! ## Amounts -/

/-- The amount of a currency in a list of entries. -/
def amountOf (id : U32) (entries : List CurrencyAmount) : ℕ :=
  ((entries.filter (·.currencyId = id)).map (·.amount.toNat)).sum

/-- No entries hold nothing. -/
@[simp] theorem amountOf_nil (id : U32) : amountOf id [] = 0 := rfl

/-- One more entry counts if it is of the currency. -/
@[simp] theorem amountOf_cons (id : U32) (entry : CurrencyAmount) (entries : List CurrencyAmount) :
    amountOf id (entry :: entries) =
      (if entry.currencyId = id then entry.amount.toNat else 0) + amountOf id entries := by
  unfold amountOf
  by_cases h : entry.currencyId = id <;> simp [h]

/-- A list without entries of a currency has none of it. -/
theorem amountOf_eq_zero {id : U32} {entries : List CurrencyAmount}
    (h : ∀ entry ∈ entries, entry.currencyId ≠ id) : amountOf id entries = 0 := by
  induction entries with
  | nil => rfl
  | cons entry entries ih =>
      rw [List.forall_mem_cons] at h
      rw [amountOf_cons, if_neg h.1, ih h.2]

/-- In a list with ascending ids the amount of a currency is that of its first entry. -/
theorem amountOf_of_pairwise {id : U32} {entries : List CurrencyAmount}
    (h : (entries.map CurrencyAmount.currencyId).Pairwise (· < ·)) :
    amountOf id entries =
      ((entries.find? (·.currencyId = id)).map fun c => c.amount.toNat).getD 0 := by
  induction entries with
  | nil => rfl
  | cons entry entries ih =>
      rw [List.map_cons, List.pairwise_cons] at h
      rw [amountOf_cons, List.find?_cons]
      by_cases hid : entry.currencyId = id
      · have hrest : amountOf id entries = 0 := by
          refine amountOf_eq_zero fun other hother heq => ?_
          have hlt := h.1 _ (List.mem_map_of_mem hother)
          rw [heq, ← hid] at hlt
          exact BitVec.lt_irrefl _ hlt
        simp [hid, hrest]
      · simp [hid, ih h.2]

section

variable [Target]

/-- The amount of a currency in a well-formed list. -/
theorem CurrencyAmounts.amountOf_eq {amounts : CurrencyAmounts} (h : amounts.WellFormed)
    (id : U32) : amountOf id amounts.items =
      ((amounts.items.find? (·.currencyId = id)).map fun c => c.amount.toNat).getD 0 :=
  amountOf_of_pairwise h.ascending

/-- The amount of an entry of a well-formed list is all that there is of its currency. -/
theorem CurrencyAmounts.amountOf_of_mem {amounts : CurrencyAmounts} (h : amounts.WellFormed)
    {c : CurrencyAmount} (hc : c ∈ amounts.items) :
    amountOf c.currencyId amounts.items = c.amount.toNat := by
  have hascending := h.ascending
  generalize amounts.items = entries at hc hascending
  induction entries with
  | nil => exact absurd hc List.not_mem_nil
  | cons entry entries ih =>
      rw [List.map_cons, List.pairwise_cons] at hascending
      obtain ⟨hfirst, hrest⟩ := hascending
      rw [amountOf_cons]
      rcases List.mem_cons.mp hc with rfl | hc
      · have hnone : amountOf c.currencyId entries = 0 := by
          apply amountOf_eq_zero
          intro d hd heq
          have hlt := hfirst _ (List.mem_map_of_mem hd)
          rw [heq] at hlt
          exact BitVec.lt_irrefl _ hlt
        rw [if_pos rfl, hnone, Nat.add_zero]
      · have hne : entry.currencyId ≠ c.currencyId := by
          intro heq
          have hlt := hfirst _ (List.mem_map_of_mem hc)
          rw [heq] at hlt
          exact BitVec.lt_irrefl _ hlt
        rw [if_neg hne, Nat.zero_add]
        exact ih hc hrest

/-- A well-formed list is empty exactly when it announces no entry. -/
theorem CurrencyAmounts.isEmpty_iff {amounts : CurrencyAmounts} (h : amounts.WellFormed) :
    amounts.isEmpty ↔ amounts.items = [] := by
  rw [CurrencyAmounts.isEmpty, ← List.length_eq_zero_iff, h.items_length, ← BitVec.toNat_inj]
  rfl

/-- The currency list of a well-formed message is well formed. -/
theorem CanonicalMessage.WellFormed.extra_ok {message : CanonicalMessage}
    (h : message.WellFormed) : message.extra.WellFormed := by
  cases message with
  | internal message => exact InternalMessage.WellFormed.extra_ok h
  | external message => exact ExternalMessage.WellFormed.extra_ok h

/-- The amount of a currency that the message of a call brings. -/
def Call.attached (id : U32) (c : Call) : ℕ := amountOf id c.input.message.extra.items

omit [Target] in
/-- The amount of a currency that the answer of a call sends away. -/
def Call.sent (id : U32) (c : Call) : ℕ :=
  (c.output.outboundIntents.map fun intent => amountOf id intent.extra).sum

/-! ## Runs -/

/-- An account after a successful deployment. -/
def Contract.Starts (contract : Contract) (start : MessageInput) (state : Bytes) : Prop :=
  start.WellFormed ∧ (contract.init start).statusCode = 0 ∧
    state = (contract.init start).nextState start.state

/-- A call of an account. -/
def Contract.Calls (contract : Contract) (state : Bytes) (c : Call) (next : Bytes) : Prop :=
  c.input.WellFormed ∧ c.input.state = state ∧ c.output = contract.processMessage c.input ∧
    next = c.output.nextState state

/-- The runs of an account: a deployment, and any calls after it. -/
abbrev Contract.Runs (contract : Contract) (start : MessageInput) : List Call → Bytes → Prop :=
  Trace.Run (contract.Starts start) contract.Calls

/-- What holds after the deployment of an account and is kept by the calls that are made holds in the
end. -/
theorem Contract.Runs.keeps {contract : Contract} {start : MessageInput} {calls : List Call}
    {state : Bytes} (Kept : Bytes → Prop) (Made : MessageInput → Prop)
    (hrun : contract.Runs start calls state) (hmade : ∀ c ∈ calls, Made c.input)
    (hstarts : ∀ state, contract.Starts start state → Kept state)
    (hcall : ∀ x : MessageInput, x.WellFormed → Made x → Kept x.state →
      Kept ((contract.processMessage x).nextState x.state)) : Kept state := by
  refine hrun.invariant (I := fun calls state => (∀ c ∈ calls, Made c.input) → Kept state)
    (fun state hstart _ => hstarts state hstart) (fun calls state c next _ hkept hcalls hall => ?_)
    hmade
  obtain ⟨hwf, hstate, hout, rfl⟩ := hcalls
  have hbefore : Kept state := hkept fun d hd => hall d (List.mem_append_left _ hd)
  rw [← hstate] at hbefore
  rw [hout, ← hstate]
  exact hcall c.input hwf (hall c (List.mem_append_right _ List.mem_cons_self)) hbefore

end

/-! ## Machines -/

section

variable [Target] {S : Type}

/-- A machine with states of type `S` that a contract runs: how a state is stored, which states are
stored, how it starts, and what an accepted message does. -/
structure Machine (S : Type) where
  /-- The bytes of a state. -/
  encode : S → Bytes
  /-- The states that are stored. -/
  Stored : S → Prop
  /-- The states after a deployment with an input. -/
  Deployed : MessageInput → S → Prop
  /-- The accepted messages, with their answers. -/
  Accepts : MessageInput → S → S → MessageOutput → Prop

/-- A call as a transition of a machine: an accepted message, or one that was refused and changed
nothing. -/
inductive Machine.Moves (machine : Machine S) (s : S) (c : Call) : S → Prop
  /-- The message was accepted. -/
  | accepted {t : S} (wellFormed : c.input.WellFormed) (before : c.before = machine.encode s)
      (accepted : c.Accepted) (accepts : machine.Accepts c.input s t c.output)
      (after : c.after = machine.encode t) : Moves machine s c t
  /-- The message was refused. -/
  | refused (wellFormed : c.input.WellFormed) (before : c.before = machine.encode s)
      (refused : ¬ c.Accepted) (output : c.output = MessageOutput.failure c.output.statusCode) :
      Moves machine s c s

/-- A transition is a call with a well-formed input. -/
theorem Machine.Moves.input_wellFormed {machine : Machine S} {s t : S} {c : Call}
    (h : machine.Moves s c t) : c.input.WellFormed := by
  cases h with
  | accepted wellFormed => exact wellFormed
  | refused wellFormed => exact wellFormed

/-- The runs of a machine from a deployment. -/
abbrev Machine.Runs (machine : Machine S) (start : MessageInput) : List Call → S → Prop :=
  Trace.Run (fun s => machine.Stored s ∧ machine.Deployed start s) machine.Moves

/-- The contract computes the transitions of the machine. -/
structure Contract.Implements (contract : Contract) (machine : Machine S) : Prop where
  init_ok : ∀ x : MessageInput, x.WellFormed → (contract.init x).statusCode = 0 →
    ∃ s, machine.Stored s ∧ machine.Deployed x s ∧
      (contract.init x).nextState x.state = machine.encode s
  stored : ∀ x s t out, machine.Stored s → machine.Accepts x s t out → machine.Stored t
  accepted : ∀ (x : MessageInput) s, x.WellFormed → machine.Stored s → x.state = machine.encode s →
    (contract.processMessage x).statusCode = 0 →
    ∃ t, machine.Accepts x s t (contract.processMessage x) ∧
      (contract.processMessage x).nextState x.state = machine.encode t
  refused : ∀ (x : MessageInput) s, machine.Stored s → x.state = machine.encode s →
    (contract.processMessage x).statusCode ≠ 0 →
    contract.processMessage x = MessageOutput.failure (contract.processMessage x).statusCode

namespace Contract.Implements

variable {contract : Contract} {machine : Machine S}

/-- A call of the contract is a move of the machine. -/
theorem moves (h : contract.Implements machine) {s : S} {state next : Bytes} {c : Call}
    (hs : machine.Stored s) (hstate : state = machine.encode s)
    (hcall : contract.Calls state c next) :
    ∃ t, machine.Moves s c t ∧ machine.Stored t ∧ next = machine.encode t := by
  obtain ⟨hwf, hinput, houtput, rfl⟩ := hcall
  have hbefore : c.input.state = machine.encode s := hinput.trans hstate
  by_cases haccepted : c.Accepted
  · have hstatus : (contract.processMessage c.input).statusCode = 0 := houtput ▸ haccepted
    obtain ⟨t, haccepts, hafter⟩ := h.accepted c.input s hwf hs hbefore hstatus
    rw [← houtput] at haccepts hafter
    exact ⟨t, .accepted hwf hbefore haccepted haccepts hafter,
      h.stored _ _ _ _ hs haccepts, by rw [← hinput]; exact hafter⟩
  · have hstatus : (contract.processMessage c.input).statusCode ≠ 0 := houtput ▸ haccepted
    have hfailure := h.refused c.input s hs hbefore hstatus
    rw [← houtput] at hfailure
    refine ⟨s, .refused hwf hbefore haccepted hfailure, hs, ?_⟩
    rw [hfailure, ← hstate]
    rfl

/-- **Runs** of the contract are runs of the machine, with the same history. -/
theorem runs (h : contract.Implements machine) {start : MessageInput} {calls : List Call}
    {state : Bytes} (hrun : contract.Runs start calls state) :
    ∃ s, machine.Runs start calls s ∧ machine.Stored s ∧ state = machine.encode s := by
  have hinit : ∀ state, contract.Starts start state →
      ∃ s, (machine.Stored s ∧ machine.Deployed start s) ∧
        (machine.Stored s ∧ state = machine.encode s) := by
    rintro state ⟨hwf, hstatus, rfl⟩
    obtain ⟨s, hstored, hdeployed, hstate⟩ := h.init_ok start hwf hstatus
    exact ⟨s, ⟨hstored, hdeployed⟩, hstored, hstate⟩
  have hstep : ∀ state c next s, (machine.Stored s ∧ state = machine.encode s) →
      contract.Calls state c next →
        ∃ t, machine.Moves s c t ∧ (machine.Stored t ∧ next = machine.encode t) :=
    fun state c next s hrel hcall => h.moves hrel.1 hrel.2 hcall
  obtain ⟨s, hruns, hstored, hstate⟩ := hrun.simulate hinit hstep
  exact ⟨s, hruns, hstored, hstate⟩

/-- Every state of a run is stored. -/
theorem stored_of_runs (h : contract.Implements machine) {start : MessageInput}
    {calls : List Call} {s : S} (hrun : machine.Runs start calls s) : machine.Stored s := by
  refine hrun.stateInvariant (fun s hs => hs.1) fun s c t hs hmove => ?_
  cases hmove with
  | accepted _ _ _ haccepts _ => exact h.stored _ _ _ _ hs haccepts
  | refused => exact hs

end Contract.Implements

end

end AvmSdk.Sdk
