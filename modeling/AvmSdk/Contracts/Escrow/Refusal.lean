import AvmSdk.Contracts.Escrow.Process

/-!
# What an escrow refuses

The errors of the message handler on a valid state.

* `process_codes`: every error is an error code.
* `process_raises`: no call ends with `ERR_STATE`.
* `raises_initializeEscrow`: no error is zero, which a host takes for success.
-/

namespace AvmSdk.Escrow

open Wire Sdk Contracts

/-- The errors that a valid state allows. -/
def Refusal (e : U32) : Prop := e ≠ 0 ∧ e ≠ errState

instance : DecidablePred Refusal := fun _ => inferInstanceAs (Decidable (_ ∧ _))

/-- The errors that a valid state allows, with their codes. -/
def Coded (e : U32) : Prop := ErrorCode e ∧ Refusal e

instance : DecidablePred Coded := fun _ => inferInstanceAs (Decidable (_ ∧ _))

/-- A literal code is one of the codes. -/
theorem coded {e : U32} (h : decide (Coded e) = true) : Coded e := of_decide_eq_true h

section

variable [Target] {x : MessageInput} {s : State} {actor : Bytes32} {E : U32 → Prop}

omit [Target] in
/-- Finishing on a valid state raises nothing. -/
theorem raises_finish (h : s.Valid) {name : String} {idx : U8} {amount : U128}
    (hname : ∃ id, eventClass name = .ok id) : Raises (finish s name idx amount) E := by
  obtain ⟨e, he⟩ := h.exists_finish name idx amount hname
  exact raises_of_ok ⟨_, he⟩

omit [Target] in
/-- A body that must be empty raises one error, -/
theorem raises_noBody {b : Bytes} (h : E errArgs) : Raises (noBody errArgs b) E :=
  raises_failIf fun _ => h

omit [Target] in
/-- and so does an index that must be in range. -/
theorem raises_index {b : U8} (h : E errArgs) : Raises (index b s) E := by
  unfold index
  exact (raises_failIf fun _ => h).bind fun _ _ => raises_pure _

/-! ## Methods -/

omit [Target] in
/-- The status raises the codes of the escrow, -/
theorem raises_status (h : s.Valid) : Raises (status x s) Coded := by
  unfold status
  refine (raises_noBody (coded rfl)).bind fun _ _ => ?_
  exact Raises.bind (raises_failIf fun _ => coded rfl) fun _ _ => raises_finish h ⟨_, rfl⟩

/-- and so do the fees, -/
theorem raises_topup (h : s.Valid) : Raises (topup x s) Coded := by
  unfold topup
  refine (raises_noBody (coded rfl)).bind fun _ _ => ?_
  exact (raises_failIf fun _ => coded rfl).bind fun _ _ => raises_finish h ⟨_, rfl⟩

/-- the funding, -/
theorem raises_fund (h : s.Valid) : Raises (fund x actor s) Coded := by
  unfold fund
  refine (raises_noBody (coded rfl)).bind fun _ _ => ?_
  refine (raises_failIf fun _ => coded rfl).bind fun _ _ => ?_
  refine (raises_failIf fun _ => coded rfl).bind fun _ _ => ?_
  refine (raises_failIf fun _ => coded rfl).bind fun _ _ => ?_
  refine (raises_failIf fun _ => coded rfl).bind fun _ _ => ?_
  exact (raises_failIf fun _ => coded rfl).bind fun _ _ => raises_finish h.deposited ⟨_, rfl⟩

/-- a submission, -/
theorem raises_submit (h : s.Valid) (hready : Ready x s) : Raises (submit x actor s) Coded := by
  unfold submit
  refine (raises_failIf fun _ => coded rfl).bind fun _ _ => ?_
  refine (raises_failIf fun _ => coded rfl).bind fun _ _ => ?_
  refine (raises_failIf fun _ => coded rfl).bind fun _ _ => ?_
  refine (raises_index (coded rfl)).bind fun i hi => ?_
  refine (raises_arrayAt (coded rfl)).bind fun hash _ => ?_
  refine (raises_failIf fun _ => coded rfl).bind fun _ hhash => ?_
  refine (raises_failIf fun _ => coded rfl).bind fun _ hphase => ?_
  have hactive := ((index_ok_iff h.config).mp hi).2
  exact raises_finish (h.submitted hready.funded hready.idle hactive
    (not_not.mp (failIf_ok_iff.mp hphase)) (failIf_ok_iff.mp hhash)) ⟨_, rfl⟩

omit [Target] in
/-- and an approval. -/
theorem raises_approve (h : s.Valid) (hready : Ready x s) : Raises (approve x actor s) Coded := by
  unfold approve
  refine (raises_failIf fun _ => coded rfl).bind fun _ _ => ?_
  refine (raises_failIf fun _ => coded rfl).bind fun _ _ => ?_
  refine (raises_failIf fun _ => coded rfl).bind fun _ _ => ?_
  refine (raises_index (coded rfl)).bind fun i hi => ?_
  refine (raises_failIf fun _ => coded rfl).bind fun _ hphase => ?_
  refine (raises_failIf fun _ => coded rfl).bind fun _ _ => ?_
  exact raises_finish (h.approved hready.funded hready.idle
    (not_not.mp (failIf_ok_iff.mp hphase))) ⟨_, rfl⟩

/-- A transfer whose state is valid is sent, unless the attempts or the balance run out. -/
theorem raises_dispatch {kind idx : U8} {amount : U128}
    (h : s.attempts.toNat < maxAttempts → (s.dispatched kind idx amount).Valid) :
    Raises (dispatch x s kind idx amount) Coded := by
  unfold dispatch
  refine (raises_failIf fun _ => coded rfl).bind fun _ hroom => ?_
  refine (raises_failIf fun _ => coded rfl).bind fun _ _ => ?_
  refine (raises_failIf fun _ => coded rfl).bind fun _ _ => ?_
  refine (raises_finish (h (Nat.not_le.mp (failIf_ok_iff.mp hroom))) ⟨_, rfl⟩).bind fun _ _ => ?_
  exact raises_pure _

/-- A payment raises the codes of the escrow, -/
theorem raises_pay (h : s.Valid) (hready : Ready x s) : Raises (pay x actor s) Coded := by
  unfold pay
  refine (raises_failIf fun _ => coded rfl).bind fun _ _ => ?_
  refine (raises_failIf fun _ => coded rfl).bind fun _ _ => ?_
  refine (raises_index (coded rfl)).bind fun i _ => ?_
  refine (raises_failIf fun _ => coded rfl).bind fun _ hphase => ?_
  exact raises_dispatch fun hroom => h.dispatchedPayment hready.funded hready.idle hroom
    (not_not.mp (failIf_ok_iff.mp hphase))

/-- and so do a refund, -/
theorem raises_refund (h : s.Valid) (hready : Ready x s) : Raises (refund x actor s) Coded := by
  obtain ⟨v, hv, hvalue⟩ := State.exists_refundable h.config
  unfold refund
  refine (raises_failIf fun _ => coded rfl).bind fun _ _ => ?_
  refine (raises_noBody (coded rfl)).bind fun _ _ => ?_
  refine (raises_failIf fun _ => coded rfl).bind fun _ _ => ?_
  rw [hv, ok_bind]
  refine (raises_failIf fun _ => coded rfl).bind fun _ hsome => ?_
  exact raises_dispatch fun hroom => h.dispatchedRefund hready.funded hready.idle hroom
    (failIf_ok_iff.mp hsome) hvalue

/-- any method, -/
theorem raises_manage (h : s.Valid) (hready : Ready x s) : Raises (manage x actor s) Coded := by
  unfold manage
  refine Raises.ite (fun _ => raises_submit h hready) fun _ => ?_
  refine Raises.ite (fun _ => raises_approve h hready) fun _ => ?_
  refine Raises.ite (fun _ => raises_pay h hready) fun _ => ?_
  exact Raises.ite (fun _ => raises_refund h hready) fun _ => raises_error (coded rfl)

/-! ## Callbacks -/

/-- and a callback. -/
theorem raises_callback (h : s.Valid) : Raises (callback x s) Coded := by
  unfold callback
  split
  next source message hcaller hmessage =>
    refine (raises_okOr fun _ => coded rfl).bind fun header hheader => ?_
    refine (raises_failIf fun _ => coded rfl).bind fun _ hguard => ?_
    have hguard := failIf_ok_iff.mp hguard
    simp only [not_or] at hguard
    obtain ⟨hpending, -, -, -, hhash, hfresh, -⟩ := hguard
    by_cases hstatus : header.statusCode = 0
    · have hsettle : Raises (settle message s) Coded := by
        intro e he
        by_cases hok : ReceiptOk s message header
        · rw [(settle_ok_iff h hpending hstatus).mpr ⟨hok, rfl⟩] at he
          exact absurd he nofun
        · -- without a receipt the first check fails
          have hfail : (∃ c ∈ message.extra.items, c.currencyId ≠ shellCurrencyId) ∨
              message.body ≠ paymentBody s.pending := by
            by_contra hno
            push Not at hno
            exact hok ⟨hstatus, hno.1, hno.2⟩
          have herror : settle message s = .error errCallback := by
            unfold settle
            dsimp only
            rw [failIf, if_pos hfail]
            rfl
          rw [herror] at he
          cases he
          exact coded rfl
      unfold outcome
      rw [if_pos hstatus]
      refine hsettle.bind fun t ht => ?_
      obtain ⟨-, rfl⟩ := (settle_ok_iff h hpending hstatus).mp ht
      rw [← settled_eq_closed]
      exact raises_finish (h.settled hpending hhash hfresh) ⟨_, by rw [if_pos hstatus]; rfl⟩
    · have hrelease : Raises (release message s) Coded := by
        unfold release
        exact (raises_failIf fun _ => coded rfl).bind fun _ _ => raises_pure _
      unfold outcome
      rw [if_neg hstatus]
      refine hrelease.bind fun t ht => ?_
      obtain ⟨-, rfl⟩ := (release_ok_iff hstatus).mp ht
      exact raises_finish (h.closed hpending hhash hfresh) ⟨_, by rw [if_neg hstatus]; rfl⟩
  next => exact raises_error (coded rfl)

/-! ## The handler -/

/-- **The errors of the handler** on a valid state. -/
theorem process_codes (h : s.Valid) (hstate : x.state = s.encode) :
    Raises (process x) Coded := by
  by_cases hcallback : x.message.isCallback
  · rw [process_callback h hstate hcallback]
    exact raises_callback h
  · cases hcaller : x.caller with
    | «internal» source =>
        rw [process, h.decode_eq hstate, ok_bind, if_neg hcallback, hcaller]
        exact raises_error (coded rfl)
    | external actor =>
        rw [process_asks h hstate ⟨hcallback, hcaller, rfl⟩]
        refine Raises.ite (fun _ => raises_status h) fun _ => ?_
        refine Raises.ite (fun _ => raises_topup h) fun _ => ?_
        refine Raises.bind (raises_failIf fun _ => coded rfl) fun _ hidle => ?_
        refine Raises.ite (fun _ => raises_fund h) fun _ => ?_
        refine Raises.bind (raises_failIf fun _ => coded rfl) fun _ hfree => ?_
        refine Raises.bind (raises_failIf fun _ => coded rfl) fun _ hfunded => ?_
        exact raises_manage h ⟨not_not.mp (failIf_ok_iff.mp hidle),
          not_not.mp (failIf_ok_iff.mp hfree), failIf_ok_iff.mp hfunded⟩

/-- The errors, whatever their codes. -/
theorem process_raises (h : s.Valid) (hstate : x.state = s.encode) : Raises (process x) Refusal :=
  (process_codes h hstate).imp fun _ he => he.2

end

end AvmSdk.Escrow
