import AvmSdk.Contracts.Handler
import AvmSdk.Contracts.Hub.Refusal

/-!
# The vault as a machine

The deployment of a vault, and the machine on decoded states that the contract computes.

* `initializeVault_ok`: a successful deployment stores a fresh ledger.
* `vaultMachine`, `revenueVault_implements`: the runs of the contract are runs of the machine with
  the steps of `Step`.
-/

namespace AvmSdk.Hub

open Wire Sdk Contracts

section

variable [Target] {x : MessageInput} {s : State} {out : MessageOutput}

/-! ## Deployment -/

/-- The ledger that a deployment leaves. -/
structure Deployed (x : MessageInput) (s : State) : Prop where
  config_eq : ∃ deploy, x.deploy = .ok deploy ∧ Config.decode deploy.initData = .ok s.config
  state_eq : s = State.new s.config
  destination_ne : ∀ i, i.val < s.config.count.toNat →
    (s.config.members i).destination ≠ x.destination

omit [Target] in
/-- A fresh ledger is valid. -/
theorem stored_new {c : Config} (h : c.Valid) : (State.new c).Stored := by
  have hzero (i : Fin maxMembers) : (State.new c).MemberOk i := by
    refine ⟨?_, fun _ => ⟨rfl, rfl⟩, fun hno => absurd rfl hno, Iff.intro (fun _ => rfl) fun _ => rfl⟩
    show 0 + 0 + 0 = (State.new c).entitled i
    exact (Shares.share_zero_total).symm
  refine ⟨⟨h, h.initialFuel_ne_zero, fun i _ => hzero i, fun _ _ => rfl, ?_, fun _ => rfl,
    fun hno => absurd rfl hno⟩, rfl⟩
  exact Finset.sum_eq_zero fun _ _ => rfl

/-- **A successful deployment.** -/
theorem initializeVault_ok (h : initializeVault x = .ok out) :
    ∃ s e, s.Stored ∧ Deployed x s ∧ out = announced s.encode e := by
  simp only [initializeVault, bind_ok_iff, mapError_ok_iff] at h
  obtain ⟨deploy, hdeploy, config, hconfig, h⟩ := h
  have hvalid := (Config.decode_ok_iff.mp hconfig).2
  split at h
  next => cases h
  next actor hcaller =>
    simp only [bind_ok_iff, failIf_ok_iff, exists_const] at h
    obtain ⟨_, -, hguard, _, -, hfinish⟩ := h
    obtain ⟨-, e, rfl⟩ := finish_inv hfinish
    push Not at hguard
    exact ⟨State.new config, e, stored_new hvalid, ⟨⟨deploy, hdeploy, hconfig⟩, rfl,
      fun i hi => (hguard.2 i (mem_firstIndices.mpr hi)).1⟩, rfl⟩

/-- Decoding a configuration raises one error. -/
theorem raises_decode {E : U32 → Prop} {b : Bytes} (h : E eArgs) : Raises (Config.decode b) E := by
  have hmember (i : Fin maxMembers) : Raises (Config.decodeMember b i) E := by
    unfold Config.decodeMember
    refine (raises_failIf fun _ => h).bind fun _ _ => (raises_arrayAt h).bind fun _ _ => ?_
    exact (raises_addressAt h).bind fun _ _ => (raises_wordAt h).bind fun _ _ => raises_pure _
  have hcheck (c : Config) (total : U32) (i : Fin maxMembers) : Raises (c.checkMember total i) E := by
    unfold Config.checkMember
    refine Raises.ite (fun _ => ?_) fun _ => ?_
    · exact (raises_failIf fun _ => h).bind fun _ _ => raises_okOr fun _ => h
    · exact (raises_failIf fun _ => h).bind fun _ _ => raises_pure _
  have hvalidate (c : Config) : Raises c.validate E := by
    unfold Config.validate
    refine (raises_failIf fun _ => h).bind fun _ _ => ?_
    exact (raises_foldlM (hcheck c) _ _).bind fun _ _ => raises_failIf fun _ => h
  unfold Config.decode
  refine (raises_failIf fun _ => h).bind fun _ _ => ?_
  refine (raises_tabulateM fun _ => raises_arrayAt h).bind fun _ _ => ?_
  refine (raises_tabulateM hmember).bind fun _ _ => (raises_wordAt h).bind fun _ _ => ?_
  refine (raises_wordAt h).bind fun _ _ => (raises_wordAt h).bind fun _ _ => ?_
  exact (hvalidate _).bind fun _ _ => raises_pure _

/-- The errors of a deployment. -/
theorem raises_initializeVault : Raises (initializeVault x) ErrorCode := by
  unfold initializeVault
  refine (raises_mapError fun _ => errorCode rfl).bind fun deploy _ => ?_
  refine (raises_decode (errorCode rfl)).bind fun config hconfig => ?_
  have hvalid := (Config.decode_ok_iff.mp hconfig).2
  split
  next => exact raises_error (errorCode rfl)
  next actor hcaller =>
    refine Raises.bind (raises_okOr fun _ => errorCode rfl) fun _ _ => ?_
    refine (raises_failIf fun _ => errorCode rfl).bind fun _ _ => ?_
    refine Raises.bind (raises_failIf fun _ => errorCode rfl) fun _ _ => ?_
    exact raises_finish (stored_new hvalid).valid ⟨_, rfl⟩

/-! ## The machine -/

/-- The machine that a vault runs. -/
abbrev vaultMachine : Machine State :=
  stepMachine State.encode State.Stored Deployed Step

/-- **The vault computes its machine.** -/
theorem revenueVault_implements : revenueVault.Implements vaultMachine :=
  implements_stepMachine (fun _ => raises_ne_zero raises_initializeVault)
    (fun _ _ => initializeVault_ok)
    (fun _ _ _ _ hs hstep => hstep.stored hs)
    (fun _ _ hs hstate e he => (process_codes hs hstate e he).1.ne_zero)
    fun _ _ _ hs hstate => process_ok hs hstate

/-- **Every step** is an answer of the vault. -/
theorem processMessage_of_step {t : State} {o : Option Transfer} (hs : s.Stored)
    (hstate : x.state = s.encode) (hstep : Step x s t o) :
    ∃ e, revenueVault.processMessage x = answer t.encode e o := by
  obtain ⟨e, he⟩ := process_of_step hs hstate hstep
  refine ⟨e, ?_⟩
  unfold revenueVault
  dsimp only
  rw [he, orFailure_ok]

end

end AvmSdk.Hub
