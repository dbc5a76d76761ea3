import AvmSdk.Contracts.Hub.Deployment

/-!
# Availability

A vault never locks itself up. Whatever was called before, its state passes its own check, every
permitted operation succeeds, and the number ranges are the only limit.

* `vault_never_wedges`.
-/

namespace AvmSdk.Hub

open Wire Sdk Contracts

section

variable [Target]

/-- The status code of a call on a stored state. -/
theorem statusCode_process {x : MessageInput} {s : State} (h : s.Stored)
    (hstate : x.state = s.encode) :
    (revenueVault.processMessage x).statusCode ≠ eState ∧
      ((revenueVault.processMessage x).statusCode = eOverflow → Overflows x s) := by
  apply statusCode_orFailure
    (P := fun status => status ≠ eState ∧ (status = eOverflow → Overflows x s))
  case hok =>
    intro out hok
    obtain ⟨t, o, e, -, rfl⟩ := process_ok h hstate hok
    exact statusCode_answer _ _ _
  case hzero => exact ⟨by decide, fun hzero => absurd hzero (by decide)⟩
  case herror => exact (process_raises h hstate).imp fun _ he => he.2

/-- **Availability**: what holds of the stored bytes of a vault, which are those of a state. -/
structure Available (b : Bytes) (s : State) : Prop where
  /-- The bytes are those of the state. -/
  encode_eq : s.encode = b
  /-- No call reports a bad state, and only those beyond a number range report an overflow. -/
  statusCode : ∀ x : MessageInput, x.WellFormed → x.state = b →
    (revenueVault.processMessage x).statusCode ≠ eState ∧
      ((revenueVault.processMessage x).statusCode = eOverflow → Overflows x s)
  /-- Every step passes the check of its result. -/
  steps : ∀ (x : MessageInput) (t : State) (o : Option Transfer), x.state = b → Step x s t o →
    t.validate = .ok () ∧ ∃ e, revenueVault.processMessage x = answer t.encode e o

/-- **A vault never wedges itself.** -/
theorem vault_never_wedges {start : MessageInput} {calls : List Call} {b : Bytes}
    (hrun : revenueVault.Runs start calls b) : ∃ s, State.decode b = .ok s ∧ Available b s := by
  obtain ⟨s, -, hstored, rfl⟩ := revenueVault_implements.runs hrun
  refine ⟨s, hstored.decode_encode, rfl, fun x _ hstate => statusCode_process hstored hstate, ?_⟩
  intro x t o hstate hstep
  exact ⟨State.validate_ok_iff.mpr (hstep.stored hstored).valid,
    processMessage_of_step hstored hstate hstep⟩

end

/-- A vault after a deposit and a claim. -/
theorem vault_never_wedges_sample :
    letI := Target.wasm32
    ∃ s, State.decode sampleClaimed.encode = .ok s ∧ Available sampleClaimed.encode s := by
  let _ := Target.wasm32
  exact vault_never_wedges sampleRun

end AvmSdk.Hub
