import AvmSdk.Contracts.Handler
import AvmSdk.Contracts.Vesting.Refusal

/-!
# A vesting contract as a machine

The deployment of a vesting contract, and the machine on decoded states that it computes.

* `initializeVesting_ok`: a successful deployment stores a fresh state.
* `vestingMachine`, `vesting_implements`: the runs of the contract are runs of the machine with the
  steps of `Step`.
-/

namespace AvmSdk.Vesting

open Wire Sdk Contracts

section

variable [Target] {x : MessageInput} {s t : State} {o : Option Transfer} {out : MessageOutput}

/-! ## Deployment -/

/-- The state that a deployment leaves. -/
structure Deployed (x : MessageInput) (s : State) : Prop where
  config_eq : ∃ deploy, x.deploy = .ok deploy ∧ Config.decode deploy.initData = .ok s.config
  state_eq : s = State.new s.config x.context.blockTime
  owner : x.caller = .external s.config.owner
  early : x.context.blockTime < s.config.firstStart
  destination_ne : ∀ i, s.config.Active i → ∀ k, (s.config.streams i).destination k ≠ x.destination

omit [Target] in
/-- A fresh state is valid. -/
theorem valid_new {c : Config} (h : c.Valid) (now : U32) : (State.new c now).Valid where
  config := h
  pristine _ := ⟨rfl, fun _ => rfl⟩
  streams _ _ :=
    { cancelled := fun hno => absurd hno Bool.noConfusion
      running := fun _ => ⟨rfl, rfl, rfl, rfl⟩
      lanes := fun _ => ⟨⟨fun _ => rfl, fun _ => rfl⟩, fun _ => ⟨rfl, rfl⟩, fun hno => absurd rfl hno⟩
      covered := fun k => State.covered_of_default rfl k now }
  idle _ _ := rfl

/-- **A successful deployment.** -/
theorem initializeVesting_ok (h : initializeVesting x = .ok out) :
    ∃ s e, s.Valid ∧ Deployed x s ∧ out = announced s.encode e := by
  simp only [initializeVesting, bind_ok_iff, mapError_ok_iff, failIf_ok_iff, exists_const] at h
  obtain ⟨deploy, hdeploy, config, hconfig, hcaller, -, -, hguard, hfinish⟩ := h
  have hvalid := (Config.decode_ok_iff.mp hconfig).2
  obtain ⟨-, e, rfl⟩ := finish_inv hfinish
  simp only [not_or, BitVec.not_le, not_exists, not_and, mem_firstIndices] at hguard
  obtain ⟨-, hearly, haccounts⟩ := hguard
  refine ⟨State.new config x.context.blockTime, e, valid_new hvalid _,
    ⟨⟨deploy, hdeploy, hconfig⟩, rfl, not_not.mp hcaller, hearly, fun i hi k => ?_⟩, rfl⟩
  have hmem : (config.streams i).destination k ∈
      [(config.streams i).payout, (config.streams i).refund] := by
    have hcases : k = 0 ∨ k = 1 := by omega
    rcases hcases with rfl | rfl
    · exact List.mem_cons_self
    · exact List.mem_cons_of_mem _ List.mem_cons_self
  exact (haccounts i hi _ hmem).1

/-- Decoding a configuration raises two errors. -/
theorem raises_decode {E : U32 → Prop} {b : Bytes} (hargs : E eArgs) (hoverflow : E eOverflow) :
    Raises (Config.decode b) E := by
  have hearned (s : Stream) (now : U32) : Raises (s.earned now) E := by
    unfold Stream.earned vested
    refine (raises_failIf fun _ => hargs).bind fun _ _ => ?_
    refine Raises.ite (fun _ => raises_pure _) fun _ => ?_
    refine Raises.ite (fun _ => raises_pure _) fun _ => ?_
    exact raises_okOr fun _ => hoverflow
  have hstream (i : Fin maxStreams) : Raises (Config.decodeStream b i) E := by
    unfold Config.decodeStream
    refine (raises_failIf fun _ => hargs).bind fun _ _ => (raises_arrayAt hargs).bind fun _ _ => ?_
    refine (raises_addressAt hargs).bind fun _ _ => (raises_addressAt hargs).bind fun _ _ => ?_
    refine (raises_wordAt hargs).bind fun _ _ => (raises_wordAt hargs).bind fun _ _ => ?_
    refine (raises_wordAt hargs).bind fun _ _ => (raises_wordAt hargs).bind fun _ _ => ?_
    exact (raises_wordAt hargs).bind fun _ _ => raises_pure _
  have hcheck (c : Config) (i : Fin maxStreams) : Raises (c.checkStream i) E := by
    unfold Config.checkStream
    refine (raises_failIf fun _ => hargs).bind fun _ _ => (hearned _ _).bind fun _ _ => ?_
    exact raises_failIf fun _ => hargs
  have htotal (c : Config) : Raises c.total E := by
    unfold Config.total
    exact raises_foldlM (fun _ _ => raises_okOr fun _ => hoverflow) _ _
  have hvalidate (c : Config) : Raises c.validate E := by
    unfold Config.validate
    refine (raises_failIf fun _ => hargs).bind fun _ _ => (raises_forM (hcheck c) _).bind fun _ _ => ?_
    refine (raises_failIf fun _ => hargs).bind fun _ _ => (htotal c).bind fun _ _ => ?_
    exact raises_pure _
  unfold Config.decode
  refine (raises_failIf fun _ => hargs).bind fun _ _ => (raises_arrayAt hargs).bind fun _ _ => ?_
  refine (raises_wordAt hargs).bind fun _ _ => (raises_tabulateM hstream).bind fun _ _ => ?_
  exact (hvalidate _).bind fun _ _ => raises_pure _

/-- The errors of a deployment. -/
theorem raises_initializeVesting : Raises (initializeVesting x) ErrorCode := by
  unfold initializeVesting
  refine (raises_mapError fun _ => errorCode rfl).bind fun deploy _ => ?_
  refine (raises_decode (errorCode rfl) (errorCode rfl)).bind fun config hconfig => ?_
  have hvalid := (Config.decode_ok_iff.mp hconfig).2
  refine (raises_failIf fun _ => errorCode rfl).bind fun _ _ => ?_
  refine Raises.bind (raises_failIf fun _ => errorCode rfl) fun _ _ => ?_
  exact (raises_failIf fun _ => errorCode rfl).bind fun _ _ => raises_finish (valid_new hvalid _)

/-! ## The machine -/

/-- The machine that a vesting contract runs. -/
abbrev vestingMachine : Machine State :=
  stepMachine State.encode State.Valid Deployed Step

/-- **A vesting contract computes its machine.** -/
theorem vesting_implements : vesting.Implements vestingMachine :=
  implements_stepMachine (fun _ => raises_ne_zero raises_initializeVesting)
    (fun _ _ => initializeVesting_ok)
    (fun _ _ _ _ hs hstep => hstep.valid hs)
    (fun _ _ hs hstate e he => (process_codes hs hstate e he).1.ne_zero)
    fun _ _ _ hs hstate => process_ok hs hstate

/-- **Every step** is an answer of the contract. -/
theorem processMessage_of_step (hs : s.Valid) (hstate : x.state = s.encode) (hstep : Step x s t o) :
    ∃ e, vesting.processMessage x = answer t.encode e o := by
  obtain ⟨e, he⟩ := process_of_step hs hstate hstep
  refine ⟨e, ?_⟩
  unfold vesting
  dsimp only
  rw [he, orFailure_ok]

end

end AvmSdk.Vesting
