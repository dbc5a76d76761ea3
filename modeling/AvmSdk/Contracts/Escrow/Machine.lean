import AvmSdk.Contracts.Escrow.Refusal
import AvmSdk.Contracts.Handler

/-!
# An escrow as a machine

The deployment of an escrow, and the machine on decoded states that it computes.

* `initializeEscrow_ok`: a successful deployment stores a fresh state.
* `escrowMachine`, `escrow_implements`: the runs of the contract are runs of the machine with the
  steps of `Step`.
-/

namespace AvmSdk.Escrow

open Wire Sdk Contracts

section

variable [Target] {x : MessageInput} {s t : State} {o : Option Transfer} {out : MessageOutput}

/-! ## Deployment -/

/-- The state that a deployment leaves. -/
structure Deployed (x : MessageInput) (s : State) : Prop where
  config_eq : ∃ deploy, x.deploy = .ok deploy ∧ Config.decode deploy.initData = .ok s.config
  state_eq : s = State.new s.config
  owner : x.caller = .external s.config.owner
  early : x.context.blockTime < s.config.deadline
  payTo_ne : s.config.payTo ≠ x.destination
  refundTo_ne : s.config.refundTo ≠ x.destination

omit [Target] in
/-- A fresh state is valid. -/
theorem valid_new {c : Config} (h : c.Valid) : (State.new c).Valid := by
  have hzero (p : U8 → Prop) [DecidablePred p] (hp : ¬ p phaseOpen) :
      (State.new c).sumWhere p = 0 := by
    unfold State.sumWhere
    apply Finset.sum_eq_zero
    intro i _
    exact if_neg hp
  exact {
    config := h
    attempts_le := Nat.zero_le _
    receipts_length := rfl
    receipts_ne_zero := fun _ hno => absurd hno List.not_mem_nil
    receipts_nodup := List.nodup_nil
    funded_cases := .inl rfl
    pristine := fun _ => ⟨rfl, fun _ => rfl⟩
    idle := fun _ _ => ⟨rfl, rfl⟩
    milestones := fun i _ => by
      have hopen : (State.new c).phases i = phaseOpen := rfl
      refine ⟨?_, fun _ => rfl, fun hno => ?_⟩
      · rw [hopen]
        decide
      · rw [hopen] at hno
        exact absurd hno (by decide)
    paid_eq := (hzero _ (by decide)).symm
    refunded_eq := (hzero _ (by decide)).symm
    covered := Nat.le_refl _
    pending := State.pendingOk_of_idle rfl
    attempt_eq := fun hno => absurd rfl hno }

/-- **A successful deployment.** -/
theorem initializeEscrow_ok (h : initializeEscrow x = .ok out) :
    ∃ s e, s.Valid ∧ Deployed x s ∧ out = announced s.encode e := by
  simp only [initializeEscrow, bind_ok_iff, mapError_ok_iff, failIf_ok_iff, exists_const, not_or,
    not_not, BitVec.not_le] at h
  obtain ⟨deploy, hdeploy, config, hconfig, hcaller, ⟨-, hearly⟩, ⟨hpay, hrefund⟩, -, -, hfinish⟩ := h
  have hvalid := (Config.decode_ok_iff.mp hconfig).2
  obtain ⟨-, e, rfl⟩ := finish_inv hvalid hfinish
  exact ⟨State.new config, e, valid_new hvalid,
    ⟨⟨deploy, hdeploy, hconfig⟩, rfl, hcaller, hearly, hpay, hrefund⟩, rfl⟩

/-- The errors of a deployment. -/
theorem raises_initializeEscrow : Raises (initializeEscrow x) ErrorCode := by
  unfold initializeEscrow
  refine (raises_mapError fun _ => errorCode rfl).bind fun deploy _ => ?_
  refine (Config.raises_decode (errorCode rfl)).bind fun config hconfig => ?_
  have hvalid := (Config.decode_ok_iff.mp hconfig).2
  refine (raises_failIf fun _ => errorCode rfl).bind fun _ _ => ?_
  refine (raises_failIf fun _ => errorCode rfl).bind fun _ _ => ?_
  refine (raises_failIf fun _ => errorCode rfl).bind fun _ _ => ?_
  exact Raises.bind (raises_failIf fun _ => errorCode rfl) fun _ _ =>
    raises_finish (valid_new hvalid) ⟨_, rfl⟩

/-! ## The machine -/

/-- The machine that an escrow runs. -/
abbrev escrowMachine : Machine State :=
  stepMachine State.encode State.Valid Deployed Step

/-- **An escrow computes its machine.** -/
theorem escrow_implements : escrow.Implements escrowMachine :=
  implements_stepMachine (fun _ => raises_ne_zero raises_initializeEscrow)
    (fun _ _ => initializeEscrow_ok)
    (fun _ _ _ _ hs hstep => hstep.valid hs)
    (fun _ _ hs hstate e he => (process_codes hs hstate e he).1.ne_zero)
    fun _ _ _ hs hstate => process_ok hs hstate

/-- **Every step** is an answer of the contract. -/
theorem processMessage_of_step (hs : s.Valid) (hstate : x.state = s.encode) (hstep : Step x s t o) :
    ∃ e, escrow.processMessage x = answer t.encode e o := by
  obtain ⟨e, he⟩ := process_of_step hs hstate hstep
  refine ⟨e, ?_⟩
  unfold escrow
  dsimp only
  rw [he, orFailure_ok]

end

end AvmSdk.Escrow
