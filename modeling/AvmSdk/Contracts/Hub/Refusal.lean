import AvmSdk.Contracts.Hub.Process

/-!
# What the vault refuses

The errors of the message handler on a stored state.

* `Overflows`: the calls that run out of a number range.
* `process_codes`: every error is an error code.
* `process_raises`: no call ends with `E_STATE`, and with `E_OVERFLOW` only those.
* `raises_initializeVault`: no error is zero, which a host takes for success.
-/

namespace AvmSdk.Hub

open Wire Sdk Contracts

section

variable [Target] {x : MessageInput} {s : State} {actor : Bytes32}

/-- The calls that exceed a number range: a deposit, a nonce, the times of a proposal. -/
def Overflows (x : MessageInput) (s : State) : Prop :=
  x.message.methodId = Ids.deposit ∧
      2 ^ 128 ≤ s.received.toNat + (principal x.message.extra).toNat ∨
    x.message.methodId = Ids.claim ∧ s.claimNonce.toNat = 2 ^ 64 - 1 ∨
    x.message.methodId = Ids.propose ∧ (s.proposalNonce.toNat = 2 ^ 64 - 1 ∨
      2 ^ 32 ≤ x.context.blockTime.toNat + s.config.delay.toNat ∨
      2 ^ 32 ≤ x.context.blockTime.toNat + s.config.delay.toNat + s.config.voteWindow.toNat)

/-- The errors that a stored state allows. -/
def Refusal (x : MessageInput) (s : State) (e : U32) : Prop :=
  e ≠ 0 ∧ e ≠ eState ∧ (e = eOverflow → Overflows x s)

/-- The error codes that are always allowed. -/
def plainError (e : U32) : Bool := e ≠ 0 ∧ e ≠ eState ∧ e ≠ eOverflow

/-- A literal code is a refusal. -/
theorem refusal {e : U32} (h : plainError e = true) : Refusal x s e := by
  obtain ⟨hzero, hstate, hoverflow⟩ := of_decide_eq_true h
  exact ⟨hzero, hstate, fun he => absurd he hoverflow⟩

/-- An overflow is allowed when the numbers do overflow. -/
theorem refusal_overflow (h : Overflows x s) : Refusal x s eOverflow :=
  ⟨by decide, by decide, fun _ => h⟩

/-- The errors that a stored state allows, with their codes. -/
def Coded (x : MessageInput) (s : State) (e : U32) : Prop := ErrorCode e ∧ Refusal x s e

/-- A literal code is one of the codes, -/
theorem coded {e : U32} (h : (plainError e && decide (ErrorCode e)) = true) : Coded x s e := by
  rw [Bool.and_eq_true, decide_eq_true_iff] at h
  exact ⟨h.2, refusal h.1⟩

/-- and so is the overflow where it can happen. -/
theorem coded_overflow (h : Overflows x s) : Coded x s eOverflow :=
  ⟨errorCode rfl, refusal_overflow h⟩

/-- Finishing on a valid state raises nothing. -/
theorem raises_finish {E : U32 → Prop} (h : s.Valid) {name : String} {index : U8} {amount : U128}
    (hname : ∃ id, eventClass name = .ok id) : Raises (finish s name index amount) E := by
  obtain ⟨e, he⟩ := h.exists_finish name index amount hname
  exact raises_of_ok ⟨_, he⟩

omit [Target] in
/-- What is held never overflows. -/
theorem raises_held {E : U32 → Prop} (h : s.Valid) : Raises s.held E := by
  obtain ⟨v, hv, -⟩ := h.exists_held
  exact raises_of_ok ⟨v, hv⟩

/-- A body that must be empty raises the codes of the vault, -/
theorem raises_noBody {b : Bytes} : Raises (noBody eArgs b) (Coded x s) :=
  raises_failIf fun _ => coded rfl

/-- and so do a proposal that is read, -/
theorem raises_decodeBody {b : Bytes} : Raises (Proposal.decodeBody b) (Coded x s) := by
  unfold Proposal.decodeBody
  refine (raises_failIf fun _ => coded rfl).bind fun _ _ => ?_
  refine (raises_wordAt (coded rfl)).bind fun nonce _ => ?_
  refine (raises_wordAt (coded rfl)).bind fun value _ => ?_
  exact (raises_failIf fun _ => coded rfl).bind fun _ _ => raises_pure _

/-- a signer that is looked up, -/
theorem raises_signer {c : Config} : Raises (c.signer actor) (Coded x s) :=
  raises_okOr fun _ => coded rfl

/-! ## Methods -/

/-- the fees -/
theorem raises_topup (h : s.Valid) : Raises (topup x s) (Coded x s) := by
  unfold topup
  refine raises_noBody.bind fun _ _ => (raises_failIf fun _ => coded rfl).bind fun _ _ => ?_
  exact raises_finish h ⟨_, rfl⟩

/-- and the status. -/
theorem raises_status (h : s.Valid) : Raises (status x s) (Coded x s) := by
  unfold status
  exact raises_noBody.bind fun _ _ => raises_finish h ⟨_, rfl⟩

/-- A deposit fails only without an amount or beyond the range. -/
theorem raises_deposit (h : s.Valid) (hmethod : x.message.methodId = Ids.deposit) :
    Raises (deposit x s) (Coded x s) := by
  unfold deposit
  refine raises_noBody.bind fun _ _ => (raises_failIf fun _ => coded rfl).bind fun _ _ => ?_
  refine (raises_failIf fun _ => coded rfl).bind fun _ _ => ?_
  refine (raises_failIf fun _ => coded rfl).bind fun _ hamount => ?_
  refine (raises_held h).bind fun held _ => (raises_failIf fun _ => coded rfl).bind fun _ _ => ?_
  have hamount := failIf_ok_iff.mp hamount
  have hdeposit : Raises (s.deposit (principal x.message.extra)) (Coded x s) := by
    cases hnext : wordCheckedAdd s.received (principal x.message.extra) with
    | some next => exact raises_of_ok ⟨_, h.deposit_eq hamount hnext⟩
    | none =>
        unfold State.deposit
        rw [(failIf_ok_iff (u := ())).mpr hamount, hnext]
        exact raises_error (coded_overflow (.inl ⟨hmethod, le_of_wordCheckedAdd_none hnext⟩))
  refine hdeposit.bind fun t ht => ?_
  obtain ⟨-, next, hnext, rfl⟩ := h.deposit_ok_iff.mp ht
  exact raises_finish (h.deposited (by omega)) ⟨_, rfl⟩

/-- A claim fails with an overflow only when the nonces are used up. -/
theorem raises_claim (h : s.Valid) (hmethod : x.message.methodId = Ids.claim) :
    Raises (claim x actor s) (Coded x s) := by
  unfold claim
  refine (raises_failIf fun _ => coded rfl).bind fun _ hguard => ?_
  refine (raises_failIf fun _ => coded rfl).bind fun _ _ => ?_
  refine (raises_failIf fun _ => coded rfl).bind fun _ _ => ?_
  refine (raises_failIf fun _ => coded rfl).bind fun _ hidle => ?_
  refine (raises_failIf fun _ => coded rfl).bind fun _ hsome => ?_
  refine (raises_held h).bind fun held _ => (raises_failIf fun _ => coded rfl).bind fun _ _ => ?_
  refine Raises.bind (raises_okOr fun hnonce => coded_overflow (.inr (.inl ⟨hmethod, ?_⟩)))
    fun nonce hnonce => ?_
  · have hlarge := le_of_wordCheckedAdd_none hnonce
    have hlt := s.claimNonce.isLt
    have hone : (1 : U64).toNat = 1 := rfl
    omega
  · obtain ⟨-, hi⟩ := (memberBody_iff h.config).mp ⟨failIf_ok_iff.mp hguard, rfl⟩
    have hnext := wordCheckedAdd_eq_some.mp (okOr_ok_iff.mp hnonce)
    have hvalid := h.locked hi (not_not.mp (failIf_ok_iff.mp hidle)) (failIf_ok_iff.mp hsome) hnext
      x.context.blockLt
    exact (raises_finish hvalid ⟨_, rfl⟩).bind fun out _ => raises_pure _

/-- A proposal fails with an overflow only when nonces or times are used up. -/
theorem raises_propose (h : s.Stored) (hmethod : x.message.methodId = Ids.propose) :
    Raises (propose x actor s) (Coded x s) := by
  have hover (hlarge : s.proposalNonce.toNat = 2 ^ 64 - 1 ∨
      2 ^ 32 ≤ x.context.blockTime.toNat + s.config.delay.toNat ∨
      2 ^ 32 ≤ x.context.blockTime.toNat + s.config.delay.toNat + s.config.voteWindow.toNat) :
      Coded x s eOverflow := coded_overflow (.inr (.inr ⟨hmethod, hlarge⟩))
  unfold propose
  refine raises_signer.bind fun signer hsigner => raises_decodeBody.bind ?_
  rintro ⟨nonce, action, value⟩ hbody
  refine (raises_failIf fun _ => coded rfl).bind fun _ hclosed => ?_
  refine Raises.bind (raises_okOr fun hnonce => hover (.inl ?_)) fun next hnext => ?_
  · have hlarge := le_of_wordCheckedAdd_none hnonce
    have hlt := s.proposalNonce.isLt
    have hone : (1 : U64).toNat = 1 := rfl
    omega
  refine (raises_failIf fun _ => coded rfl).bind fun _ hnonce => ?_
  refine Raises.bind (raises_okOr fun hready =>
    hover (.inr (.inl (le_of_wordCheckedAdd_none hready)))) fun ready hready => ?_
  have hready := wordCheckedAdd_eq_some.mp (okOr_ok_iff.mp hready)
  refine Raises.bind (raises_okOr fun hexpires =>
    hover (.inr (.inr (hready ▸ le_of_wordCheckedAdd_none hexpires)))) fun expires hexpires => ?_
  obtain rfl := not_not.mp (failIf_ok_iff.mp hnonce)
  obtain ⟨hproposes, hbody⟩ := Proposal.decodeBody_ok_iff.mp hbody
  have hclosed := failIf_ok_iff.mp hclosed
  rw [not_and, BitVec.not_lt] at hclosed
  have ok : ProposeOk x actor s signer ⟨nonce, action, voteBit signer, value,
      x.context.blockTime, ready, expires⟩ :=
    ⟨(signer_ok_iff h.valid.config).mp hsigner, hproposes, hbody, hclosed,
      wordCheckedAdd_eq_some.mp (okOr_ok_iff.mp hnext), rfl, rfl, hready,
      wordCheckedAdd_eq_some.mp (okOr_ok_iff.mp hexpires)⟩
  have hvalid := (ok.keeps_stored h).valid
  rw [← h.proposed_eq] at hvalid
  exact raises_finish hvalid ⟨_, rfl⟩

/-- A vote raises the codes of the vault, -/
theorem raises_vote (h : s.Stored) : Raises (vote x actor s) (Coded x s) := by
  unfold vote
  refine raises_signer.bind fun signer hsigner => raises_decodeBody.bind fun _ _ => ?_
  refine (raises_failIf fun _ => coded rfl).bind fun _ hstored => ?_
  refine (raises_failIf fun _ => coded rfl).bind fun _ hexpired => ?_
  refine (raises_failIf fun _ => coded rfl).bind fun _ hfresh => ?_
  refine (raises_wordAt (coded rfl)).bind fun value _ => ?_
  have hstored := failIf_ok_iff.mp hstored
  rw [not_or, not_not] at hstored
  have ok : VoteOk x actor s signer :=
    ⟨(signer_ok_iff h.valid.config).mp hsigner, hstored.1, hstored.2,
      BitVec.not_le.mp (failIf_ok_iff.mp hexpired), not_not.mp (failIf_ok_iff.mp hfresh)⟩
  have hvalid := (ok.keeps_stored h).valid
  rw [← h.voted_eq] at hvalid
  exact raises_finish hvalid ⟨_, rfl⟩

/-- and so do an execution -/
theorem raises_execute (h : s.Stored) : Raises (execute x s) (Coded x s) := by
  unfold execute
  refine (raises_failIf fun _ => coded rfl).bind fun _ _ => ?_
  refine (raises_failIf fun _ => coded rfl).bind fun _ hstored => ?_
  refine (raises_wordAt (coded rfl)).bind fun nonce _ => ?_
  refine (raises_failIf fun _ => coded rfl).bind fun _ _ => ?_
  refine (raises_failIf fun _ => coded rfl).bind fun _ _ => ?_
  refine (raises_failIf fun _ => coded rfl).bind fun _ _ => ?_
  refine (raises_failIf fun _ => coded rfl).bind fun _ _ => ?_
  obtain ⟨t, ht, hpost⟩ := enact_eq h (failIf_ok_iff.mp hstored)
  rw [ht, ok_bind, hpost]
  exact raises_finish (h.valid.executing (failIf_ok_iff.mp hstored)) ⟨_, rfl⟩

/-! ## Callbacks -/

/-- and a callback. -/
theorem raises_callback (h : s.Valid) : Raises (callback x s) (Coded x s) := by
  unfold callback
  split
  next source message hcaller hmessage =>
    refine (raises_okOr fun _ => coded rfl).bind fun header hheader => ?_
    refine (raises_okOr fun _ => coded rfl).bind fun i hi => ?_
    refine (raises_failIf fun _ => coded rfl).bind fun _ hguard => ?_
    obtain ⟨hi, hsource⟩ := (destination_find_iff h.config).mp (okOr_ok_iff.mp hi)
    have ok := (not_callbackRejected_iff hi hsource).mp (failIf_ok_iff.mp hguard)
    refine Raises.ite (fun hstatus => ?_) fun hstatus => ?_
    · have hsettle : Raises (settle message header s i) (Coded x s) := by
        unfold settle
        dsimp only
        rw [wordCheckedAdd_of_lt (h.paid_add_lt hi), wordCheckedAdd_of_lt (h.total_add_lt i)]
        exact (raises_failIf fun _ => coded rfl).bind fun _ _ => raises_ok _
      refine hsettle.bind fun t ht => ?_
      obtain ⟨-, rfl⟩ := (settle_ok_iff h hi hstatus).mp ht
      exact raises_finish (h.settled hi ok.createdLt_ne_zero ok.hash_ne_zero) ⟨_, rfl⟩
    · have hrelease : Raises (release message header s i) (Coded x s) := by
        unfold release
        dsimp only
        rw [wordCheckedAdd_of_lt (h.claimable_add_lt hi)]
        exact (raises_failIf fun _ => coded rfl).bind fun _ _ => raises_ok _
      refine hrelease.bind fun t ht => ?_
      obtain ⟨-, rfl⟩ := (release_ok_iff h hi hstatus).mp ht
      exact raises_finish (h.released hi ok.createdLt_ne_zero ok.hash_ne_zero) ⟨_, rfl⟩
  next => exact raises_error (coded rfl)

/-! ## The handler -/

/-- **The errors of the handler** on a stored state. -/
theorem process_codes (h : s.Stored) (hstate : x.state = s.encode) :
    Raises (process x) (Coded x s) := by
  have hv := h.valid
  by_cases hcallback : x.message.isCallback
  · rw [process_callback h hstate hcallback]
    exact raises_callback hv
  · cases hcaller : x.caller with
    | «internal» source =>
        rw [process, h.decode_eq hstate, ok_bind, if_neg hcallback, hcaller]
        exact raises_error (coded rfl)
    | external actor =>
        rw [process_asks h hstate ⟨hcallback, hcaller, rfl⟩]
        refine Raises.ite (fun _ => raises_topup hv) fun _ => ?_
        refine Raises.ite (fun hmethod => raises_deposit hv hmethod) fun _ => ?_
        refine Raises.bind (raises_failIf fun _ => coded rfl) fun _ _ => ?_
        refine Raises.ite (fun _ => raises_status hv) fun _ => ?_
        refine Raises.ite (fun hmethod => raises_claim hv hmethod) fun _ => ?_
        refine Raises.ite (fun hmethod => raises_propose h hmethod) fun _ => ?_
        refine Raises.ite (fun _ => raises_vote h) fun _ => ?_
        exact Raises.ite (fun _ => raises_execute h) fun _ => raises_error (coded rfl)

/-- The errors, whatever their codes. -/
theorem process_raises (h : s.Stored) (hstate : x.state = s.encode) :
    Raises (process x) (Refusal x s) :=
  (process_codes h hstate).imp fun _ he => he.2

end

end AvmSdk.Hub
