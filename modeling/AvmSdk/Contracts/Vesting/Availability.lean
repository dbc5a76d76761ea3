import AvmSdk.Contracts.Vesting.Deployment

/-!
# Availability

A vesting contract never locks itself up. Whatever was called before, its state passes its own
check, every permitted operation succeeds, and the range of the nonces is the only limit.

* `vesting_never_wedges`.
-/

namespace AvmSdk.Vesting

open Wire Sdk Contracts

section

variable [Target]

/-- The status code of a call on a valid state. -/
theorem statusCode_process {x : MessageInput} {s : State} (h : s.Valid)
    (hstate : x.state = s.encode) :
    (vesting.processMessage x).statusCode ≠ eState ∧
      ((vesting.processMessage x).statusCode = eOverflow → Overflows x s) := by
  apply statusCode_orFailure
    (P := fun status => status ≠ eState ∧ (status = eOverflow → Overflows x s))
  case hok =>
    intro out hok
    obtain ⟨t, o, e, -, rfl⟩ := process_ok h hstate hok
    exact statusCode_answer _ _ _
  case hzero => exact ⟨by decide, fun hzero => absurd hzero (by decide)⟩
  case herror => exact (process_raises h hstate).imp fun _ he => he.2

/-- **Availability**: what holds of the stored bytes of a contract, which are those of a state. -/
structure Available (b : Bytes) (s : State) : Prop where
  /-- The bytes are those of the state. -/
  encode_eq : s.encode = b
  /-- No call reports a bad state, and only a payment beyond the last nonce reports an overflow. -/
  statusCode : ∀ x : MessageInput, x.WellFormed → x.state = b →
    (vesting.processMessage x).statusCode ≠ eState ∧
      ((vesting.processMessage x).statusCode = eOverflow → Overflows x s)
  /-- Every step passes the check of its result. -/
  steps : ∀ (x : MessageInput) (t : State) (o : Option Transfer), x.state = b → Step x s t o →
    t.validate = .ok () ∧ ∃ e, vesting.processMessage x = answer t.encode e o

/-- **A vesting contract never wedges itself.** -/
theorem vesting_never_wedges {start : MessageInput} {calls : List Call} {b : Bytes}
    (hrun : vesting.Runs start calls b) : ∃ s, State.decode b = .ok s ∧ Available b s := by
  obtain ⟨s, -, hvalid, rfl⟩ := vesting_implements.runs hrun
  refine ⟨s, hvalid.decode_encode, rfl, fun x _ hstate => statusCode_process hvalid hstate, ?_⟩
  intro x t o hstate hstep
  exact ⟨State.validate_ok_iff.mpr (hstep.valid hvalid), processMessage_of_step hvalid hstate hstep⟩

end

/-- A contract after the principal came in and a payment was sent. -/
theorem vesting_never_wedges_sample :
    letI := Target.wasm32
    ∃ s, State.decode sampleClaimed.encode = .ok s ∧ Available sampleClaimed.encode s := by
  let _ := Target.wasm32
  exact vesting_never_wedges sampleRun

end AvmSdk.Vesting
