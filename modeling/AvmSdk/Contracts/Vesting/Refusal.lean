import AvmSdk.Contracts.Vesting.Process

/-!
# What a vesting contract refuses

The errors of the message handler on a valid state.

* `Overflows`: the payments that find the nonces used up.
* `process_codes`: every error is an error code.
* `process_raises`: no call ends with `E_STATE`, and with `E_OVERFLOW` only those.
* `raises_initializeVesting`: no error is zero, which a host takes for success.
-/

namespace AvmSdk.Vesting

open Wire Sdk Contracts

section

variable [Target] {x : MessageInput} {s : State} {actor : Bytes32} {i : Fin maxStreams} {k : Fin 2}

/-- The payments that need a nonce beyond the last one. -/
def Overflows (x : MessageInput) (s : State) : Prop :=
  (x.message.methodId = Ids.claim ∨ x.message.methodId = Ids.refund) ∧ s.nonce.toNat = 2 ^ 64 - 1

/-- The errors that a valid state allows. -/
def Refusal (x : MessageInput) (s : State) (e : U32) : Prop :=
  e ≠ 0 ∧ e ≠ eState ∧ (e = eOverflow → Overflows x s)

/-- The error codes that are always allowed. -/
def plainError (e : U32) : Bool := e ≠ 0 ∧ e ≠ eState ∧ e ≠ eOverflow

omit [Target] in
/-- A literal code is a refusal. -/
theorem refusal {e : U32} (h : plainError e = true) : Refusal x s e := by
  obtain ⟨hzero, hstate, hoverflow⟩ := of_decide_eq_true h
  exact ⟨hzero, hstate, fun he => absurd he hoverflow⟩

/-- The errors that a valid state allows, with their codes. -/
def Coded (x : MessageInput) (s : State) (e : U32) : Prop := ErrorCode e ∧ Refusal x s e

omit [Target] in
/-- A literal code is one of the codes. -/
theorem coded {e : U32} (h : (plainError e && decide (ErrorCode e)) = true) : Coded x s e := by
  rw [Bool.and_eq_true, decide_eq_true_iff] at h
  exact ⟨h.2, refusal h.1⟩

omit [Target] in
/-- Finishing on a valid state raises nothing. -/
theorem raises_finish {E : U32 → Prop} (h : s.Valid) {eventClass : U64} {name : String}
    {index kind : U8} {amount : U128} :
    Raises (finish s eventClass name index kind amount) E := by
  obtain ⟨e, he⟩ := h.exists_finish eventClass name index kind amount
  exact raises_of_ok ⟨_, he⟩

omit [Target] in
/-- A body that must be empty raises the codes of the contract, -/
theorem raises_noBody {b : Bytes} : Raises (noBody eArgs b) (Coded x s) :=
  raises_failIf fun _ => coded rfl

/-! ## Methods -/

/-- and so do the fees, -/
theorem raises_topup (h : s.Valid) : Raises (topup x s) (Coded x s) := by
  unfold topup
  refine raises_noBody.bind fun _ _ => (raises_failIf fun _ => coded rfl).bind fun _ _ => ?_
  exact raises_finish h

omit [Target] in
/-- the status, -/
theorem raises_status (h : s.Valid) : Raises (status x s) (Coded x s) := by
  unfold status
  exact raises_noBody.bind fun _ _ => raises_finish h

/-- the funding -/
theorem raises_fund (h : s.Valid) : Raises (fund x actor s) (Coded x s) := by
  obtain ⟨total, htotal, -⟩ := h.config.exists_total
  unfold fund
  refine raises_noBody.bind fun _ _ => (raises_failIf fun _ => coded rfl).bind fun _ _ => ?_
  refine (raises_failIf fun _ => coded rfl).bind fun _ _ => ?_
  rw [htotal, ok_bind]
  refine (raises_failIf fun _ => coded rfl).bind fun _ _ => ?_
  exact (raises_failIf fun _ => coded rfl).bind fun _ _ => raises_finish h.deposited

omit [Target] in
/-- and a cancellation. -/
theorem raises_cancel (h : s.Valid) (hi : s.config.Active i) (hfunded : s.funded = true) :
    Raises (cancel actor s i) (Coded x s) := by
  obtain ⟨cap, hcap, hvalue⟩ := Stream.exists_earned (h.config.timed i hi) s.lastTime
  unfold cancel
  refine (raises_failIf fun _ => coded rfl).bind fun _ _ => ?_
  refine (raises_failIf fun _ => coded rfl).bind fun _ hrevocable => ?_
  refine (raises_failIf fun _ => coded rfl).bind fun _ hphase => ?_
  have hrevocable := (Bool.not_eq_false _).mp (failIf_ok_iff.mp hrevocable)
  have hphase := failIf_ok_iff.mp hphase
  rw [not_or, BitVec.not_le] at hphase
  rw [hcap, ok_bind]
  exact raises_finish
    (h.cancelled hfunded hi hrevocable (Bool.eq_false_iff.mpr hphase.1) hphase.2 hvalue)

omit [Target] in
/-- What is due is defined, if the lane is in use. -/
theorem raises_due (h : s.Valid) (hi : s.config.Active i) (hfunded : s.funded = true) :
    Raises (s.due i k s.lastTime) (Coded x s) := by
  have hstream := h.streams i hi
  have hle := State.entitledAt_le hstream.cancelled s.lastTime
  by_cases hk : k = 1 → (s.progress i).cancelled = true
  · have hcovered := hstream.covered k
    have hpart := State.allotted_le (k := k) hle
    obtain ⟨v, hv⟩ := exists_word_of_le (x := (s.config.streams i).total)
      (m := s.allotted i k s.lastTime -
        (((s.progress i).paid k).toNat + ((s.progress i).lanes k).pending.toNat)) (by omega)
    have hdue : s.due i k s.lastTime = .ok v :=
      (State.due_ok_iff hfunded (h.config.timed i hi) hle).mpr ⟨hk, by omega⟩
    exact raises_of_ok ⟨v, hdue⟩
  · -- the refund lane of a stream that was not cancelled
    obtain ⟨rfl, hrunning⟩ := Classical.not_imp.mp hk
    obtain ⟨cap, hcap⟩ := s.exists_entitled i s.lastTime
    have hcap := (State.cap_ok_iff (h.config.timed i hi)).mpr hcap
    have hlimit : s.limit i 1 cap = .error ePhase := by
      have hphase : failIf ((s.progress i).cancelled = false) ePhase = .error ePhase :=
        if_pos (Bool.eq_false_iff.mpr hrunning)
      unfold State.limit
      dsimp only
      rw [if_neg Fin.zero_ne_one.symm, hphase]
      rfl
    have hno : ¬ s.funded = false := (Bool.not_eq_false _).mpr hfunded
    unfold State.due
    rw [if_neg hno, hcap, ok_bind, hlimit]
    exact raises_error (coded rfl)

/-- A payment fails with an overflow only when the nonces are used up. -/
theorem raises_pay (h : s.Valid) (hi : s.config.Active i) (hfunded : s.funded = true)
    (hmethod : x.message.methodId = Ids.claim ∨ x.message.methodId = Ids.refund) :
    Raises (pay x s i k) (Coded x s) := by
  obtain ⟨held, hheld, -⟩ := h.exists_held
  unfold pay
  refine (raises_failIf fun _ => coded rfl).bind fun _ hidle => ?_
  refine (raises_due h hi hfunded).bind fun amount hamount => ?_
  refine (raises_failIf fun _ => coded rfl).bind fun _ hsome => ?_
  rw [hheld, ok_bind]
  refine (raises_failIf fun _ => coded rfl).bind fun _ _ => ?_
  refine Raises.bind (raises_okOr fun hnonce => ?_) fun nonce hnonce => ?_
  · have hlarge := le_of_wordCheckedAdd_none hnonce
    have hlt := s.nonce.isLt
    have hone : (1 : U64).toNat = 1 := rfl
    exact ⟨by decide, by decide, by decide, fun _ => ⟨hmethod, by omega⟩⟩
  · have hnext := wordCheckedAdd_eq_some.mp (okOr_ok_iff.mp hnonce)
    have hvalid := h.locked hfunded hi (not_not.mp (failIf_ok_iff.mp hidle))
      (failIf_ok_iff.mp hsome) hamount hnext x.context.blockLt
    exact (raises_finish hvalid).bind fun out _ => raises_pure _

/-- Any method raises the codes of the contract, -/
theorem raises_manage (h : s.Valid) : Raises (manage x actor s) (Coded x s) := by
  unfold manage
  refine (raises_failIf fun _ => coded rfl).bind fun _ hguard => ?_
  refine (raises_failIf fun _ => coded rfl).bind fun _ hfunded => ?_
  obtain ⟨-, hi⟩ := (streamBody_iff h.config).mp ⟨failIf_ok_iff.mp hguard, rfl⟩
  have hfunded := (Bool.not_eq_false _).mp (failIf_ok_iff.mp hfunded)
  refine Raises.ite (fun _ => raises_cancel h hi hfunded) fun _ => ?_
  refine Raises.ite (fun hclaim => ?_) fun _ => ?_
  · exact (raises_failIf fun _ => coded rfl).bind fun _ _ =>
      raises_pay h hi hfunded (.inl hclaim)
  · refine Raises.ite (fun hrefund => ?_) fun _ => raises_error (coded rfl)
    exact (raises_failIf fun _ => coded rfl).bind fun _ _ =>
      raises_pay h hi hfunded (.inr hrefund)

/-! ## Callbacks -/

/-- and so do a payment that is read back -/
theorem raises_readPayment {E : U32 → Prop} {b : Bytes} (h : E eCallback) :
    Raises ((readPayment b).mapError fun _ => eCallback) E :=
  raises_mapError fun _ => h

/-- and a callback. -/
theorem raises_callback (h : s.Valid) : Raises (callback x s) (Coded x s) := by
  unfold callback
  split
  next source message hcaller hmessage =>
    refine (raises_failIf fun _ => coded rfl).bind fun _ hkind => ?_
    refine (raises_okOr fun _ => coded rfl).bind fun header hheader => ?_
    refine (raises_failIf fun _ => coded rfl).bind fun _ hcause => ?_
    refine (raises_okOr fun _ => coded rfl).bind ?_
    rintro ⟨i, k⟩ hlane
    obtain ⟨hi, -⟩ := (Config.laneOf_eq_some_iff h.config).mp (okOr_ok_iff.mp hlane)
    refine (raises_failIf fun _ => coded rfl).bind fun _ hguard => ?_
    have hguard := failIf_ok_iff.mp hguard
    simp only [not_or, BitVec.not_le] at hguard
    obtain ⟨hpending, hafter, -, -⟩ := hguard
    have hhash := (not_or.mp (failIf_ok_iff.mp hcause)).2
    have hlt : message.createdLt ≠ 0 := by
      intro hzero
      rw [hzero] at hafter
      exact BitVec.not_lt_zero hafter
    refine Raises.ite (fun hstatus => ?_) fun hstatus => ?_
    · have hsettle : Raises (settle message header s i k) (Coded x s) := by
        obtain ⟨q, hq, -⟩ := addPaid_eq
          (Lane.closed message.createdLt header.causeMsgHash) (h.paid_add_lt hi k)
        unfold settle
        refine (raises_failIf fun _ => coded rfl).bind fun _ _ => ?_
        refine (raises_readPayment (coded rfl)).bind fun _ _ => ?_
        refine (raises_failIf fun _ => coded rfl).bind fun _ _ => ?_
        rw [hq, ok_bind]
        exact raises_pure _
      refine hsettle.bind fun t ht => ?_
      have hnonce := (((h.streams i hi).lanes k).locked hpending).1
      obtain ⟨-, rfl⟩ := (settle_ok_iff h hi hnonce hpending hstatus).mp ht
      exact raises_finish (h.settled hi hpending hlt hhash)
    · have hrelease : Raises (release message header s i k) (Coded x s) := by
        unfold release
        exact (raises_failIf fun _ => coded rfl).bind fun _ _ => raises_pure _
      refine hrelease.bind fun t ht => ?_
      obtain ⟨-, rfl⟩ := (release_ok_iff hstatus).mp ht
      exact raises_finish (h.released hi hpending hlt hhash)
  next => exact raises_error (coded rfl)

/-! ## The handler -/

/-- **The errors of the handler** on a valid state. -/
theorem process_codes (h : s.Valid) (hstate : x.state = s.encode) :
    Raises (process x) (Coded x s) := by
  have hv := h.observed x.context.blockTime
  -- time does not change what the nonces allow
  have hsame {r : ResultCode MessageOutput}
      (hr : Raises r (Coded x (s.observed x.context.blockTime))) : Raises r (Coded x s) := hr
  by_cases hcallback : x.message.isCallback
  · rw [process_callback h hstate hcallback]
    exact hsame (raises_callback hv)
  · cases hcaller : x.caller with
    | «internal» source =>
        rw [process, h.decode_eq hstate, ok_bind]
        dsimp only
        rw [if_neg hcallback, hcaller]
        exact raises_error (coded rfl)
    | external actor =>
        rw [process_asks h hstate ⟨hcallback, hcaller, rfl⟩]
        refine Raises.ite (fun _ => hsame (raises_topup hv)) fun _ => ?_
        refine Raises.ite (fun _ => hsame (raises_fund hv)) fun _ => ?_
        refine Raises.bind (raises_failIf fun _ => coded rfl) fun _ _ => ?_
        exact Raises.ite (fun _ => hsame (raises_status hv)) fun _ => hsame (raises_manage hv)

/-- The errors, whatever their codes. -/
theorem process_raises (h : s.Valid) (hstate : x.state = s.encode) :
    Raises (process x) (Refusal x s) :=
  (process_codes h hstate).imp fun _ he => he.2

end

end AvmSdk.Vesting
