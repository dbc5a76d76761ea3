import AvmSdk.Contracts.Escrow.Conservation

/-!
# The history of an escrow

What a step does to the phases, and what one state says about the later ones.

* `PhaseMove`, `Step.phaseMove`: the moves of a phase.
* `Later`, `Step.later`: what is settled or approved stays so.
* `Awaited`, `pending_since`: a pending transfer was sent by the last call that changed anything.
-/

namespace AvmSdk.Escrow

open Wire Sdk Contracts

/-! ## Moves of a phase -/

/-- **The moves of a phase.** -/
inductive PhaseMove : U8 → U8 → Prop
  /-- Nothing happens; a delivery that is handed in again stays submitted. -/
  | same (p : U8) : PhaseMove p p
  | submitted : PhaseMove phaseOpen phaseSubmitted
  | approved : PhaseMove phaseSubmitted phaseApproved
  | paid : PhaseMove phaseApproved phasePaid
  | refunded {p : U8} (h : Refundable p) : PhaseMove p phaseRefunded

namespace PhaseMove

variable {p q : U8}

/-- A milestone that is paid stays so, -/
theorem of_paid (h : PhaseMove p q) (hp : p = phasePaid) : q = phasePaid := by
  cases h with
  | same => exact hp
  | submitted => exact absurd hp (by decide)
  | approved => exact absurd hp (by decide)
  | paid => rfl
  | refunded hrefund => rcases hrefund with h | h <;> exact absurd (h.symm.trans hp) (by decide)

/-- one that is refunded stays so, -/
theorem of_refunded (h : PhaseMove p q) (hp : p = phaseRefunded) : q = phaseRefunded := by
  cases h with
  | same => exact hp
  | submitted => exact absurd hp (by decide)
  | approved => exact absurd hp (by decide)
  | paid => exact absurd hp (by decide)
  | refunded => rfl

/-- and one that is approved stays so or is paid. -/
theorem of_approved (h : PhaseMove p q) (hp : p = phaseApproved) :
    q = phaseApproved ∨ q = phasePaid := by
  cases h with
  | same => exact .inl hp
  | submitted => exact absurd hp (by decide)
  | approved => exact .inl rfl
  | paid => exact .inr rfl
  | refunded hrefund => rcases hrefund with h | h <;> exact absurd (h.symm.trans hp) (by decide)

end PhaseMove

/-- A phase that an update sets. -/
theorem phaseMove_update {phases : Fin maxMilestones → U8} {i : Fin maxMilestones} {b : U8}
    (h : PhaseMove (phases i) b) (j : Fin maxMilestones) :
    PhaseMove (phases j) (Function.update phases i b j) := by
  by_cases hj : j = i
  · subst hj
    rw [Function.update_self]
    exact h
  · rw [Function.update_of_ne hj]
    exact .same _

section

variable [Target] {x : MessageInput} {s t u : State} {o : Option Transfer} {c : Call}
  {start : MessageInput} {calls pre post : List Call}

/-- **What a step does to a phase.** -/
theorem Step.phaseMove (hstep : Step x s t o) (h : s.Valid) (i : Fin maxMilestones) :
    PhaseMove (s.phases i) (t.phases i) := by
  cases hstep with
  | status => exact .same _
  | topup => exact .same _
  | fund => exact .same _
  | pay => exact .same _
  | refund => exact .same _
  | bounce => exact .same _
  | @submit _ j _ ask ok =>
      refine phaseMove_update ?_ i
      rcases ok.phase with hphase | hphase
      · rw [hphase]
        exact .submitted
      · rw [hphase]
        exact .same _
  | @approve _ j ask ok =>
      refine phaseMove_update ?_ i
      rw [ok.phase]
      exact .approved
  | receipt ret ok arrived =>
      unfold State.settled
      by_cases hkind : s.pending.kind = 1
      · rw [if_pos hkind]
        refine phaseMove_update ?_ i
        show PhaseMove (s.phases (milestone s.pending.index)) phasePaid
        rw [(h.pending.payment hkind).2.1]
        exact .paid
      · rw [if_neg hkind]
        show PhaseMove (s.phases i) (s.refundedPhases i)
        unfold State.refundedPhases
        split_ifs with hboth
        · exact .refunded hboth.2
        · exact .same _

/-- Only a delivery changes a hash, of a milestone that is not approved yet. -/
theorem Step.deliveryHashes_eq (hstep : Step x s t o) {i : Fin maxMilestones}
    (hi : ¬ Refundable (s.phases i)) : t.deliveryHashes i = s.deliveryHashes i := by
  cases hstep with
  | @submit _ j _ ask ok =>
      have hne : i ≠ j := fun heq => hi (heq ▸ ok.phase)
      exact Function.update_of_ne hne ..
  | receipt ret ok arrived =>
      unfold State.settled
      split_ifs <;> rfl
  | _ => rfl

/-! ## Later states -/

/-- What a state says about all later ones. -/
structure Later (s t : State) : Prop where
  config_eq : t.config = s.config
  paid : ∀ i, s.phases i = phasePaid → t.phases i = phasePaid
  refunded : ∀ i, s.phases i = phaseRefunded → t.phases i = phaseRefunded
  /-- What is approved stays approved until it is paid, with its hash. -/
  approved : ∀ i, s.phases i = phaseApproved ∨ s.phases i = phasePaid →
    (t.phases i = phaseApproved ∨ t.phases i = phasePaid) ∧
      t.deliveryHashes i = s.deliveryHashes i

omit [Target] in
/-- A state is later than itself, -/
theorem Later.refl (s : State) : Later s s :=
  ⟨rfl, fun _ h => h, fun _ h => h, fun _ h => ⟨h, rfl⟩⟩

omit [Target] in
/-- and what comes later than a later state is later. -/
theorem Later.trans (h : Later s t) (h' : Later t u) : Later s u where
  config_eq := h'.config_eq.trans h.config_eq
  paid i hi := h'.paid i (h.paid i hi)
  refunded i hi := h'.refunded i (h.refunded i hi)
  approved i hi := by
    obtain ⟨hphase, hhash⟩ := h.approved i hi
    obtain ⟨hphase', hhash'⟩ := h'.approved i hphase
    exact ⟨hphase', hhash'.trans hhash⟩

/-- Every step leads to a later state. -/
theorem Step.later (hstep : Step x s t o) (h : s.Valid) : Later s t where
  config_eq := hstep.config_eq
  paid i hi := (hstep.phaseMove h i).of_paid hi
  refunded i hi := (hstep.phaseMove h i).of_refunded hi
  approved i hi := by
    have hno : ¬ Refundable (s.phases i) := by rcases hi with hi | hi <;> rw [hi] <;> decide
    refine ⟨?_, hstep.deliveryHashes_eq hno⟩
    rcases hi with hi | hi
    · exact (hstep.phaseMove h i).of_approved hi
    · exact .inr ((hstep.phaseMove h i).of_paid hi)

/-- So does every call of a run. -/
theorem later_of_moves (hrun : escrowMachine.Runs start calls s) (hmove : escrowMachine.Moves s c t) :
    Later s t := by
  rcases moves_cases hmove with ⟨o, hc⟩ | ⟨rfl, -⟩
  · exact hc.step.later (escrow_implements.stored_of_runs hrun)
  · exact Later.refl _

/-- **Two calls of a run**, with the state after the first and that before the second. -/
theorem between_calls {d : Call} (hrun : escrowMachine.Runs start (pre ++ c :: post) s)
    (hd : d ∈ post) : ∃ s t u v, escrowMachine.Runs start pre s ∧ escrowMachine.Moves s c t ∧
      Later t u ∧ (∃ es, escrowMachine.Runs start es u) ∧ escrowMachine.Moves u d v :=
  hrun.between Later.refl (fun _ _ _ h h' => h.trans h') hd fun _ _ _ _ hrun hmove =>
    later_of_moves hrun hmove

/-! ## What is pending -/

/-- A call that does nothing. -/
structure Idle (c : Call) : Prop where
  after_eq : c.after = c.before
  outbound : c.output.outboundIntents = []
  no_callback : ¬ c.AcceptedCallback

/-- The transfer of a state was sent by a call, and the calls behind it did nothing. -/
def Awaited (start : MessageInput) (calls : List Call) (s : State) : Prop :=
  ∃ pre d post u, calls = pre ++ d :: post ∧ escrowMachine.Runs start pre u ∧ u.pending.kind = 0 ∧
    Performs State.encode Step u d s (some s.transfer) ∧ ∀ e ∈ post, Idle e

/-- While a transfer is pending, a step does nothing; or it sent the transfer. -/
theorem Step.pending_cases (hstep : Step x s t o) (hpending : t.pending.kind ≠ 0) :
    (t = s ∧ o = none ∧ ¬ x.message.isCallback) ∨ (s.pending.kind = 0 ∧ o = some t.transfer) := by
  cases hstep with
  | status ask => exact .inl ⟨rfl, rfl, ask.not_callback⟩
  | topup ask => exact .inl ⟨rfl, rfl, ask.not_callback⟩
  | fund ask ok => exact absurd ok.idle hpending
  | submit ask ok => exact absurd ok.idle hpending
  | approve ask ok => exact absurd ok.idle hpending
  | pay ask ok => exact .inr ⟨ok.idle, rfl⟩
  | refund ask ok => exact .inr ⟨ok.idle, rfl⟩
  | receipt ret ok arrived =>
      refine absurd ?_ hpending
      unfold State.settled
      split_ifs <;> rfl
  | bounce ret ok returned => exact absurd rfl hpending

/-- **A pending transfer** was sent, and nothing has changed since. -/
theorem pending_since (hrun : escrowMachine.Runs start calls s) (hpending : s.pending.kind ≠ 0) :
    Awaited start calls s := by
  revert hpending
  refine hrun.invariant (I := fun es s => s.pending.kind ≠ 0 → Awaited start es s) ?_ ?_
  · intro s hs hpending
    rw [hs.2.state_eq] at hpending
    exact absurd rfl hpending
  · intro es s c t hrun ih hmove hpending
    -- one more call that did nothing
    have hidle (hsame : t = s) (hc : Idle c) : Awaited start (es ++ [c]) t := by
      subst hsame
      obtain ⟨pre, d, post, u, rfl, hu, hfree, hd, hpost⟩ := ih hpending
      refine ⟨pre, d, post ++ [c], u, by simp, hu, hfree, hd, fun e he => ?_⟩
      rcases List.mem_append.mp he with he | he
      · exact hpost e he
      · rw [List.mem_singleton.mp he]
        exact hc
    rcases moves_cases hmove with ⟨o, hc⟩ | ⟨rfl, hignored⟩
    · rcases hc.step.pending_cases hpending with ⟨rfl, rfl, hcallback⟩ | ⟨hfree, rfl⟩
      · exact hidle rfl ⟨hc.after.trans hc.before.symm, hc.outbound, fun hno => hcallback hno.2⟩
      · exact ⟨es, c, [], s, rfl, hrun, hfree, hc, fun _ hno => absurd hno List.not_mem_nil⟩
    · exact hidle rfl ⟨hignored.after.trans hignored.before.symm, hignored.outbound,
        fun hno => hignored.refused hno.1⟩

end

end AvmSdk.Escrow
