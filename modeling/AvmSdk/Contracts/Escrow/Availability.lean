import AvmSdk.Contracts.Escrow.Conservation

/-!
# Availability

An escrow never locks itself up. Whatever was called before, its state passes its own check, and its
transfers can be sent as long as the account covers them and the attempts are not used up.

* `escrow_never_wedges`.
* `refund_of_unfunded`: without its principal an escrow has nothing to send back, although its
  milestones are all refundable.
-/

namespace AvmSdk.Escrow

open Wire Sdk Contracts

section

variable [Target] {x : MessageInput} {s : State}

/-- The status code of a call on a valid state. -/
theorem statusCode_process (h : s.Valid) (hstate : x.state = s.encode) :
    (escrow.processMessage x).statusCode ≠ errState := by
  apply statusCode_orFailure (P := fun status => status ≠ errState)
  case hok =>
    intro out hok
    obtain ⟨t, o, e, -, rfl⟩ := process_ok h hstate hok
    exact statusCode_answer _ _ _
  case hzero => decide
  case herror => exact (process_raises h hstate).imp fun _ he => he.2

/-- The message brings nothing, and the account covers what the escrow owes and its fuel. -/
structure Covers (x : MessageInput) (s : State) : Prop where
  free : x.message.extra.items = []
  owed : s.funded.toNat - s.paid.toNat - s.refunded.toNat ≤ amountOf principalCurrencyId x.extra.items
  fuel : s.config.fuelReserve.toNat ≤ amountOf shellCurrencyId x.extra.items

/-- A balance is one entry of a well-formed list. -/
theorem exists_mem_of_le_amountOf {extra : CurrencyAmounts} (h : extra.WellFormed) {id : U32}
    {v : U128} (hv : v ≠ 0) (hle : v.toNat ≤ amountOf id extra.items) :
    ∃ c ∈ extra.items, c.currencyId = id ∧ v ≤ c.amount := by
  have hpos : v.toNat ≠ 0 := fun hzero => hv (BitVec.eq_of_toNat_eq hzero)
  rw [CurrencyAmounts.amountOf_eq h] at hle
  cases hfind : extra.items.find? (·.currencyId = id) with
  | none =>
      rw [hfind] at hle
      exact absurd (Nat.le_zero.mp hle) hpos
  | some c =>
      rw [hfind] at hle
      have hfound := List.find?_some hfind
      have hid : c.currencyId = id := of_decide_eq_true hfound
      exact ⟨c, List.mem_of_find?_eq_some hfind, hid, BitVec.le_def.mpr hle⟩

/-- A covered transfer can be sent. -/
theorem Covers.sendOk (hcovers : Covers x s) (hwf : x.WellFormed) (h : s.Valid)
    (hroom : s.attempts.toNat < maxAttempts) : SendOk x s := by
  have hextra : x.extra.WellFormed := hwf.frame_ok.extra_ok
  refine ⟨hroom, ?_, exists_mem_of_le_amountOf hextra h.config.fuelReserve_ne_zero hcovers.fuel⟩
  rw [← amountOf_principal hextra]
  exact hcovers.owed

/-- A call that brings what a report needs finds the escrow ready. -/
theorem Covers.ready (hcovers : Covers x s) (hwf : x.WellFormed) (hidle : s.pending.kind = 0)
    (hfunded : s.funded ≠ 0) : Ready x s :=
  ⟨hidle, (CurrencyAmounts.isEmpty_iff hwf.message_ok.extra_ok).mpr hcovers.free, hfunded⟩

/-- **Availability**: what holds of the stored bytes of an escrow, which are those of a state. -/
structure Available (b : Bytes) (s : State) : Prop where
  /-- The bytes are those of the state. -/
  encode_eq : s.encode = b
  /-- No call reports a bad state. -/
  statusCode : ∀ x : MessageInput, x.WellFormed → x.state = b →
    (escrow.processMessage x).statusCode ≠ errState
  /-- An approved milestone can be paid. -/
  pays : ∀ (x : MessageInput) (actor : Bytes32) (i : Fin maxMilestones), x.WellFormed →
    x.state = b → s.attempts.toNat < maxAttempts → s.pending.kind = 0 → Asks x Ids.pay actor →
    s.config.owner = actor ∨ s.config.worker = actor → s.phases i = phaseApproved →
    x.message.body = [BitVec.ofNat 8 i.val] → Covers x s →
    (escrow.processMessage x).statusCode = 0
  /-- From the deadline on a funded escrow can refund what is refundable. -/
  refunds : ∀ (x : MessageInput) (amount : U128), x.WellFormed → x.state = b →
    s.attempts.toNat < maxAttempts → s.pending.kind = 0 → Asks x Ids.refund s.config.owner →
    s.funded ≠ 0 → s.config.deadline ≤ x.context.blockTime → s.refundable = .ok amount →
    amount ≠ 0 → x.message.body = [] → Covers x s → (escrow.processMessage x).statusCode = 0

/-- The status code of a step. -/
theorem statusCode_of_step {t : State} {o : Option Transfer} (h : s.Valid)
    (hstate : x.state = s.encode) (hstep : Step x s t o) :
    (escrow.processMessage x).statusCode = 0 := by
  obtain ⟨e, he⟩ := processMessage_of_step h hstate hstep
  rw [he, statusCode_answer]

/-- **An escrow never wedges itself.** -/
theorem escrow_never_wedges {start : MessageInput} {calls : List Call} {b : Bytes}
    (hrun : escrow.Runs start calls b) : ∃ s, State.decode b = .ok s ∧ Available b s := by
  obtain ⟨s, -, hvalid, rfl⟩ := escrow_implements.runs hrun
  refine ⟨s, hvalid.decode_encode, rfl, fun x _ hstate => statusCode_process hvalid hstate, ?_, ?_⟩
  · intro x actor i hwf hstate hroom hidle ask hsigner hphase hbody hcovers
    have hne : s.phases i ≠ phaseOpen := by rw [hphase]; decide
    have hfunded : s.funded ≠ 0 := fun hno => hne ((hvalid.pristine hno).2 i)
    have ok : PayOk x actor s i := ⟨hcovers.ready hwf hidle hfunded, hcovers.sendOk hwf hvalid hroom,
      hsigner, hbody, hvalid.active_of_ne_open hne, hphase⟩
    exact statusCode_of_step hvalid hstate (.pay ask ok)
  · intro x amount hwf hstate hroom hidle ask hfunded hlate hamount hsome hbody hcovers
    have hvalue := (State.refundable_ok_iff hvalid.config.idle).mp hamount
    have ok : RefundOk x s.config.owner s amount := ⟨hcovers.ready hwf hidle hfunded,
      hcovers.sendOk hwf hvalid hroom, rfl, hbody, hlate, hvalue, hsome⟩
    exact statusCode_of_step hvalid hstate (.refund ask ok)

end

/-- An escrow that can pay a milestone and, past its deadline, refund the other one. -/
theorem escrow_never_wedges_sample :
    letI := Target.wasm32
    sampleReleased.pending.kind = 0 ∧ sampleReleased.phases sampleIndex = phaseApproved ∧
      sampleReleased.refundable = .ok 400 ∧
      ∃ s, State.decode sampleReleased.encode = .ok s ∧ Available sampleReleased.encode s := by
  let _ := Target.wasm32
  exact ⟨rfl, rfl, by decide, escrow_never_wedges sampleReleasedRun⟩

/-- The owner asks for a refund at the deadline, before the principal came in. -/
def sampleRefund : MessageInput :=
  sampleCall 100 (State.new sampleConfig) sampleConfig.owner Ids.refund [] []

/-- What the first refund of the sample meets. -/
theorem covers_sampleRefund [Target] : Covers sampleRefund (State.new sampleConfig) := by
  have hextra : sampleRefund.extra = holding 1000 9 := rfl
  refine ⟨CurrencyAmounts.items_ofEntries (by decide), Nat.zero_le _, ?_⟩
  rw [hextra, items_holding]
  decide

/-- **An escrow without its principal** refuses the refund, although 1000 are refundable, the account
covers what is owed and nothing else is missing. -/
theorem refund_of_unfunded :
    letI := Target.wasm32
    escrow.Runs sampleStart [] (State.new sampleConfig).encode ∧ sampleRefund.WellFormed ∧
      sampleRefund.state = (State.new sampleConfig).encode ∧
      (State.new sampleConfig).attempts.toNat < maxAttempts ∧
      (State.new sampleConfig).pending.kind = 0 ∧
      Asks sampleRefund Ids.refund sampleConfig.owner ∧
      sampleConfig.deadline ≤ sampleRefund.context.blockTime ∧
      (State.new sampleConfig).refundable = .ok 1000 ∧ sampleRefund.message.body = [] ∧
      Covers sampleRefund (State.new sampleConfig) ∧
      (escrow.processMessage sampleRefund).statusCode = errPhase := by
  let _ := Target.wasm32
  have hdeploy : sampleConfig.DeployableAt (sampleAddress 20) sampleStart.context.blockTime :=
    sampleConfig_deployable
  have hvalid := valid_new sampleConfig_deployable.valid
  have hstate : sampleRefund.state = (State.new sampleConfig).encode := state_signedInput _ _ _ _
  have ask : Asks sampleRefund Ids.refund sampleConfig.owner := ⟨fun hno => hno, rfl, rfl⟩
  have hidle : failIf ((State.new sampleConfig).pending.kind ≠ 0) errPending = .ok () := rfl
  have hfree : zeroValue sampleRefund = .ok () := rfl
  have hfunded : failIf ((State.new sampleConfig).funded = 0) errPhase = .error errPhase := rfl
  have hprocess : process sampleRefund = .error errPhase := by
    rw [process_asks hvalid hstate ⟨ask.not_callback, ask.caller, rfl⟩, ask.method_eq,
      if_neg (by decide), if_neg (by decide), hidle, ok_bind, if_neg (by decide), hfree, ok_bind,
      hfunded, error_bind]
  refine ⟨.start (starts_deployment hdeploy),
    sampleCall_wellFormed (by decide) (by decide) (by decide) (by decide), hstate, by decide, rfl,
    ask, by decide, by decide, rfl, covers_sampleRefund, ?_⟩
  show (orFailure (process sampleRefund)).statusCode = errPhase
  rw [hprocess]
  rfl

end AvmSdk.Escrow
