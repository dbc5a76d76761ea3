import AvmSdk.Contracts.Hub.Claims

/-!
# Governance

What the history of a vault says about its governance: a proposal takes effect only with two
signatures and after its delay, and nothing else changes the pause and the fuel limit.

* `GovernanceStep`: what a call does to the governance. `moves_governance`.
* `Backed`: the proposal that is stored was made by one signer and carries the votes of others.
  `backed_of_runs`: so it is in every state.
* `Authorized`, `Governed`, `governance_confined`: the facts of a history, for every run.
-/

namespace AvmSdk.Hub

open Wire Sdk Contracts Trace

/-! ## Votes -/

/-- The bits of the signers are different. -/
theorem eq_of_voteBit_and {i j : Fin 3} (h : voteBit i &&& voteBit j ≠ 0) : i = j := by
  revert i j
  decide

/-- A bit of a word shows in its conjunction with a word that has the bit too. -/
theorem and_ne_zero_of_bit {x y : U8} {n : ℕ} (hx : x.getLsbD n = true) (hy : y.getLsbD n = true) :
    x &&& y ≠ 0 := by
  intro hzero
  have hbit : (x &&& y).getLsbD n = true := by
    rw [BitVec.getLsbD_and, hx, hy]
    rfl
  rw [hzero] at hbit
  exact absurd hbit (by simp)

/-- A bit among those of the signers is that of one. -/
theorem and_voteBit_ne_zero {votes : U8} {n : ℕ} (hknown : votes &&& ~~~7 = 0)
    (hbit : votes.getLsbD n = true) : ∃ j : Fin 3, j.val = n ∧ votes &&& voteBit j ≠ 0 := by
  have hcases : n = 0 ∨ n = 1 ∨ n = 2 ∨ n = 3 ∨ n = 4 ∨ n = 5 ∨ n = 6 ∨ n = 7 := by
    have hn : n < 8 := BitVec.lt_of_getLsbD hbit
    omega
  rcases hcases with rfl | rfl | rfl | rfl | rfl | rfl | rfl | rfl
  · exact ⟨0, rfl, and_ne_zero_of_bit hbit (by decide)⟩
  · exact ⟨1, rfl, and_ne_zero_of_bit hbit (by decide)⟩
  · exact ⟨2, rfl, and_ne_zero_of_bit hbit (by decide)⟩
  all_goals exact absurd hknown (and_ne_zero_of_bit hbit (by decide))

/-- Two votes are of two signers. -/
theorem exists_other_vote {votes : U8} (hknown : votes &&& ~~~7 = 0) (hquorum : 2 ≤ countOnes votes)
    (i : Fin 3) : ∃ j, j ≠ i ∧ votes &&& voteBit j ≠ 0 := by
  obtain ⟨n, -, hne, hbit⟩ := exists_bit_ne_of_two_le_countOnes hquorum i.val
  obtain ⟨j, rfl, hj⟩ := and_voteBit_ne_zero hknown hbit
  exact ⟨j, fun hji => hne (congrArg Fin.val hji), hj⟩

/-! ## Steps of the governance -/

/-- An accepted call of a method with a body, signed by one of the signers. -/
def SignedBy (config : Config) (method : U64) (signer : Fin 3) (body : Bytes) (c : Call) : Prop :=
  c.AcceptedMethod method ∧ c.input.caller = .external (config.signers signer) ∧
    c.input.message.body = body

section

variable [Target] {config : Config} {s t : State} {c : Call} {start : MessageInput}
  {calls : List Call}

/-- **What a call does to the governance.** -/
inductive GovernanceStep (config : Config) (c : Call) (s : State) : State → Prop
  /-- A signer proposes. -/
  | proposed {actor : Bytes32} {signer : Fin 3} {p : Proposal}
      (signed : SignedBy config Ids.propose signer p.body c)
      (ok : ProposeOk c.input actor s signer p) : GovernanceStep config c s (s.proposed p)
  /-- A signer votes. -/
  | voted {actor : Bytes32} {signer : Fin 3}
      (signed : SignedBy config Ids.vote signer s.proposal.body c)
      (ok : VoteOk c.input actor s signer) : GovernanceStep config c s (s.voted signer)
  /-- The proposal takes effect. -/
  | executed (accepted : c.AcceptedMethod Ids.execute) (ok : ExecuteOk c.input s) :
      GovernanceStep config c s s.executed
  /-- The call leaves the governance. -/
  | other {t : State} (not_propose : ¬ c.AcceptedMethod Ids.propose)
      (not_execute : ¬ c.AcceptedMethod Ids.execute) (proposal_eq : t.proposal = s.proposal)
      (proposalNonce_eq : t.proposalNonce = s.proposalNonce) (paused_eq : t.paused = s.paused)
      (fuelLimit_eq : t.fuelLimit = s.fuelLimit) : GovernanceStep config c s t

/-- **Every call of the vault** changes the governance in one of four ways. -/
theorem moves_governance (hsame : config.SameTerms s.config)
    (hmove : vaultMachine.Moves s c t) : GovernanceStep config c s t := by
  have hasks {method : U64} {actor : Bytes32} (ask : Asks c.input method actor)
      (h : method ≠ Ids.propose ∧ method ≠ Ids.execute) :
      ¬ c.AcceptedMethod Ids.propose ∧ ¬ c.AcceptedMethod Ids.execute :=
    ⟨not_acceptedMethod_of_asks ask h.1, not_acceptedMethod_of_asks ask h.2⟩
  rcases moves_cases hmove with ⟨o, hc⟩ | ⟨rfl, hc⟩
  · cases hc.step with
    | topup ask =>
        obtain ⟨hpropose, hexecute⟩ := hasks ask (by decide)
        exact .other hpropose hexecute rfl rfl rfl rfl
    | deposit ask =>
        obtain ⟨hpropose, hexecute⟩ := hasks ask (by decide)
        exact .other hpropose hexecute rfl rfl rfl rfl
    | status ask =>
        obtain ⟨hpropose, hexecute⟩ := hasks ask (by decide)
        exact .other hpropose hexecute rfl rfl rfl rfl
    | claim ask =>
        obtain ⟨hpropose, hexecute⟩ := hasks ask (by decide)
        exact .other hpropose hexecute rfl rfl rfl rfl
    | propose ask free ok =>
        refine .proposed ⟨⟨hc.accepted, ask.not_callback, ask.method_eq⟩, ?_, ok.body⟩ ok
        rw [ask.caller, ← hsame.signers, ok.signer_eq]
    | vote ask free ok =>
        refine .voted ⟨⟨hc.accepted, ask.not_callback, ask.method_eq⟩, ?_, ok.body⟩ ok
        rw [ask.caller, ← hsame.signers, ok.signer_eq]
    | execute ask free ok =>
        exact .executed ⟨hc.accepted, ask.not_callback, ask.method_eq⟩ ok
    | receipt ret =>
        exact .other (not_acceptedMethod_of_returns ret) (not_acceptedMethod_of_returns ret) rfl rfl
          rfl rfl
    | bounce ret =>
        exact .other (not_acceptedMethod_of_returns ret) (not_acceptedMethod_of_returns ret) rfl rfl
          rfl rfl
  · exact .other (fun h => hc.refused h.1) (fun h => hc.refused h.1) rfl rfl rfl rfl

/-- A call of a run changes the governance in one of the four ways. -/
theorem runs_governance (hterms : Terms start config) (hrun : vaultMachine.Runs start calls s)
    (hmove : vaultMachine.Moves s c t) : GovernanceStep config c s t :=
  moves_governance (sameTerms_of_runs hterms hrun) hmove

/-! ## The stored proposal -/

/-- **A proposal with a history**: a signer made it, nothing was proposed since, and every other vote
that it carries was cast since, before it expires. -/
def Backed (config : Config) (calls : List Call) (p : Proposal) : Prop :=
  ∃ early d late i, calls = early ++ d :: late ∧ SignedBy config Ids.propose i p.body d ∧
    d.input.context.blockTime = p.created ∧ (∀ e ∈ late, ¬ e.AcceptedMethod Ids.propose) ∧
    ∀ j, p.votes &&& voteBit j ≠ 0 → j = i ∨ ∃ v ∈ late, SignedBy config Ids.vote j p.body v ∧
      v.input.context.blockTime < p.expires

omit [Target] in
/-- A history grows: the proposal may carry a new vote, if that is the new call. -/
theorem Backed.snoc {p q : Proposal} (h : Backed config calls p) (hbody : q.body = p.body)
    (hcreated : q.created = p.created) (hexpires : q.expires = p.expires)
    (hc : ¬ c.AcceptedMethod Ids.propose)
    (hvotes : ∀ j, q.votes &&& voteBit j ≠ 0 → p.votes &&& voteBit j ≠ 0 ∨
      SignedBy config Ids.vote j p.body c ∧ c.input.context.blockTime < p.expires) :
    Backed config (calls ++ [c]) q := by
  obtain ⟨early, d, late, i, rfl, hsigned, htime, hlate, hold⟩ := h
  refine ⟨early, d, late ++ [c], i, by simp, hbody ▸ hsigned, htime.trans hcreated.symm, ?_, ?_⟩
  · intro e he
    rcases List.mem_append.mp he with he | he
    · exact hlate e he
    · rw [List.mem_singleton.mp he]
      exact hc
  · intro j hj
    rw [hbody, hexpires]
    rcases hvotes j hj with hj | ⟨hnew, hbefore⟩
    · rcases hold j hj with rfl | ⟨v, hv, hvote⟩
      · exact .inl rfl
      · exact .inr ⟨v, List.mem_append_left _ hv, hvote⟩
    · exact .inr ⟨c, List.mem_append_right _ (List.mem_singleton_self c), hnew, hbefore⟩

/-- **The stored proposal** has a history, in every state of a run. -/
theorem backed_of_runs (hterms : Terms start config) (hrun : vaultMachine.Runs start calls s)
    (hstored : s.proposal.nonce ≠ 0) : Backed config calls s.proposal := by
  have hbacked := hrun.invariant
    (I := fun calls s => s.proposal.nonce ≠ 0 → Backed config calls s.proposal)
    (fun s hs hno => absurd (by rw [hs.2.state_eq]; rfl) hno) fun es s c t hrun hold hmove => ?_
  · exact hbacked hstored
  · cases runs_governance hterms hrun hmove with
    | @proposed _ signer p signed ok =>
        intro _
        have hproposal : (s.proposed p).proposal = p := rfl
        rw [hproposal]
        refine ⟨es, c, [], signer, rfl, signed, ok.created_eq.symm,
          fun e he => absurd he List.not_mem_nil, fun j hj => .inl ?_⟩
        rw [ok.votes_eq] at hj
        exact (eq_of_voteBit_and hj).symm
    | @voted _ signer signed ok =>
        intro _
        refine (hold ok.stored).snoc rfl rfl rfl (fun h => ?_) fun j hj => ?_
        · exact absurd (signed.1.2.2.symm.trans h.2.2) (by decide)
        · by_cases hold : s.proposal.votes &&& voteBit j = 0
          · have hnew : voteBit signer &&& voteBit j ≠ 0 := by
              intro hzero
              apply hj
              show (s.proposal.votes ||| voteBit signer) &&& voteBit j = 0
              rw [BitVec.and_comm, BitVec.and_or_distrib_left, BitVec.and_comm, hold,
                BitVec.and_comm, hzero]
              rfl
            rw [← eq_of_voteBit_and hnew]
            exact .inr ⟨signed, ok.not_expired⟩
          · exact .inl hold
    | executed => exact fun hno => absurd rfl hno
    | other not_propose _ proposal_eq =>
        intro hno
        rw [proposal_eq] at hno ⊢
        exact (hold hno).snoc rfl rfl rfl not_propose fun j hj => .inl hj

/-! ## Nonces -/

omit [Target] in
/-- The nonce at the front of a body. -/
def namedNonce (c : Call) : ℕ := (ofLe 64 (c.input.message.body.extract 0 8)).toNat

omit [Target] in
/-- The proposal that a vote or an execution names. -/
theorem namedNonce_eq {nonce : U64} {rest : Bytes}
    (h : c.input.message.body = toLe nonce ++ rest) : namedNonce c = nonce.toNat := by
  have hextract : (toLe nonce ++ rest).extract 0 8 = toLe nonce := by
    rw [List.extract_eq_take_drop, List.drop_zero, Nat.sub_zero,
      List.take_append_of_le_length (by simp), List.take_of_length_le (by simp)]
  unfold namedNonce
  rw [h, hextract, ofLe_toLe (by decide)]

/-- **Proposals are numbered** 1, 2, 3 and so on. -/
theorem proposals_numbered (hterms : Terms start config)
    (hrun : vaultMachine.Runs start calls s) :
    (calls.filter (Call.AcceptedMethod Ids.propose ·)).map namedNonce =
      List.range' 1 s.proposalNonce.toNat := by
  refine hrun.numbered (Call.AcceptedMethod Ids.propose) namedNonce
    (fun s => s.proposalNonce.toNat) (fun s hs => by rw [hs.2.state_eq]; rfl)
    fun es s c t hrun hmove => ?_
  cases runs_governance hterms hrun hmove with
  | @proposed _ _ p signed ok =>
      have hnumber := namedNonce_eq ok.body
      have hnonce := ok.nonce_eq
      refine ⟨fun _ => ⟨?_, ?_⟩, fun hno => absurd signed.1 hno⟩
      · omega
      · exact hnonce.symm
  | voted signed =>
      refine ⟨fun h => ?_, fun _ => rfl⟩
      exact absurd (signed.1.2.2.symm.trans h.2.2) (by decide)
  | executed accepted =>
      refine ⟨fun h => ?_, fun _ => rfl⟩
      exact absurd (accepted.2.2.symm.trans h.2.2) (by decide)
  | other not_propose _ _ proposalNonce_eq =>
      exact ⟨fun h => absurd h not_propose, fun _ => congrArg BitVec.toNat proposalNonce_eq⟩

/-- **No nonce takes effect twice.** -/
theorem executions_spent (hterms : Terms start config) (hrun : vaultMachine.Runs start calls s) :
    ((calls.filter (Call.AcceptedMethod Ids.execute ·)).map namedNonce).Nodup := by
  have hspent := hrun.spent (Call.AcceptedMethod Ids.execute) namedNonce
    (fun s => s.proposalNonce.toNat)
    (fun s n => s.proposal.nonce ≠ 0 ∧ s.proposal.nonce.toNat = n)
    (fun es s n hrun hopen => ?_) fun es s c t hrun hmove => ?_
  · exact hspent.1
  · have hvalid := (revenueVault_implements.stored_of_runs hrun).valid
    rw [← hopen.2, (hvalid.proposal hopen.1).nonce_eq]
  · cases runs_governance hterms hrun hmove with
    | @proposed _ _ p signed ok =>
        have hnonce := ok.nonce_eq
        have hlt : s.proposalNonce.toNat < p.nonce.toNat := by omega
        refine ⟨hlt.le, fun n hopen => .inr ?_, fun h => ?_⟩
        · rw [← hopen.2]
          exact hlt
        · exact absurd (signed.1.2.2.symm.trans h.2.2) (by decide)
    | voted signed =>
        refine ⟨le_rfl, fun n hopen => .inl hopen, fun h => ?_⟩
        exact absurd (signed.1.2.2.symm.trans h.2.2) (by decide)
    | executed accepted ok =>
        have hclosed : s.executed.proposal.nonce = 0 := rfl
        refine ⟨le_rfl, fun n hopen => absurd hclosed hopen.1, fun _ => ⟨⟨ok.stored, ?_⟩,
          fun hopen => hopen.1 hclosed⟩⟩
        have hbody : c.input.message.body = toLe s.proposal.nonce ++ [] := by
          rw [List.append_nil]
          exact ok.body
        exact (namedNonce_eq hbody).symm
    | other _ not_execute proposal_eq proposalNonce_eq =>
        rw [proposal_eq, proposalNonce_eq]
        exact ⟨le_rfl, fun n hopen => .inl hopen, fun h => absurd h not_execute⟩

/-! ## The governance of a vault -/

/-- What an action does to the pause and the fuel limit. -/
structure Enacts (action : U8) (value : U128) (before after : State) : Prop where
  known : action = pause ∨ action = resume ∨ action = setFuel
  paused_eq : after.paused =
    if action = pause then true else if action = resume then false else before.paused
  fuelLimit_eq : after.fuelLimit = if action = setFuel then value else before.fuelLimit

/-- **The right to execute**, in the calls before: a signer proposed exactly this, nothing was
proposed since, another signer voted for exactly this before it expired, and the time lies in the
window. -/
def Authorized (config : Config) (calls : List Call) (c : Call) (body : Bytes) : Prop :=
  ∃ early d late i, calls = early ++ d :: late ∧ SignedBy config Ids.propose i body d ∧
    (∀ e ∈ late, ¬ e.AcceptedMethod Ids.propose) ∧
    (∃ v ∈ late, ∃ j, j ≠ i ∧ config.signers j ≠ config.signers i ∧
      SignedBy config Ids.vote j body v ∧
      v.input.context.blockTime.toNat <
        d.input.context.blockTime.toNat + config.delay.toNat + config.voteWindow.toNat) ∧
    d.input.context.blockTime.toNat + config.delay.toNat ≤ c.input.context.blockTime.toNat ∧
    c.input.context.blockTime.toNat <
      d.input.context.blockTime.toNat + config.delay.toNat + config.voteWindow.toNat

/-- A proposal that has its votes and its time was authorized. -/
theorem authorized_of_execute (hterms : Terms start config)
    (hrun : vaultMachine.Runs start calls s) (ok : ExecuteOk c.input s) :
    Authorized config calls c s.proposal.body := by
  have hvalid := (revenueVault_implements.stored_of_runs hrun).valid
  have hsame := sameTerms_of_runs hterms hrun
  have hp := hvalid.proposal ok.stored
  obtain ⟨early, d, late, i, heq, hsigned, htime, hlate, hvotes⟩ :=
    backed_of_runs hterms hrun ok.stored
  obtain ⟨j, hji, hj⟩ := exists_other_vote hp.votes_known ok.quorum i
  have hready := hp.ready_eq
  have hexpires := hp.expires_eq
  rw [hsame.delay, ← htime] at hready
  rw [hsame.voteWindow] at hexpires
  have hlow := BitVec.le_def.mp ok.ready
  have hhigh := BitVec.lt_def.mp ok.not_expired
  refine ⟨early, d, late, i, heq, hsigned, hlate, ?_, by omega, by omega⟩
  rcases hvotes j hj with hno | ⟨v, hv, hvote, hbefore⟩
  · exact absurd hno hji
  · have hvtime := BitVec.lt_def.mp hbefore
    refine ⟨v, hv, j, hji, fun hkey => hji ?_, hvote, by omega⟩
    rw [← hsame.signers] at hkey
    exact hvalid.config.signers_injective hkey

/-- **Governance is confined**: what the history of a vault with this configuration, which is now in
a state, says about its governance. -/
structure Governed (config : Config) (calls : List Call) (s : State) : Prop where
  /-- What takes effect was authorized by two signers, and its time has come. -/
  executes : ∀ pre c post, calls = pre ++ c :: post → c.AcceptedMethod Ids.execute →
    ∃ p : Proposal, c.input.message.body = toLe p.nonce ∧ Authorized config pre c p.body ∧
      ∃ before after, State.decode c.before = .ok before ∧ State.decode c.after = .ok after ∧
        Enacts p.action p.value before after
  /-- No nonce takes effect twice. -/
  once : ((calls.filter (Call.AcceptedMethod Ids.execute ·)).map namedNonce).Nodup
  /-- Proposals are numbered 1, 2, 3 and so on. -/
  numbered : (calls.filter (Call.AcceptedMethod Ids.propose ·)).map namedNonce =
    List.range' 1 s.proposalNonce.toNat
  /-- A proposal replaces another one only when that has expired. -/
  proposes : ∀ c ∈ calls, c.AcceptedMethod Ids.propose → ∃ before,
    State.decode c.before = .ok before ∧
      (before.proposal.nonce ≠ 0 → before.proposal.expires ≤ c.input.context.blockTime)
  /-- No call changes the terms, and only executions change the pause and the fuel limit. -/
  confined : ∀ c ∈ calls, ∃ before after, State.decode c.before = .ok before ∧
    State.decode c.after = .ok after ∧ config.SameTerms before.config ∧
    config.SameTerms after.config ∧
    (¬ c.AcceptedMethod Ids.execute →
      after.paused = before.paused ∧ after.fuelLimit = before.fuelLimit)

/-- **Governance is two of three, locked in time and confined**, in every run of a vault. -/
theorem governance_confined {b : Bytes} (hrun : revenueVault.Runs start calls b) :
    ∃ config s, Terms start config ∧ State.decode b = .ok s ∧ Governed config calls s := by
  obtain ⟨s, hruns, hstored, rfl⟩ := revenueVault_implements.runs hrun
  obtain ⟨config, hterms⟩ := exists_terms hruns
  refine ⟨config, s, hterms, hstored.decode_encode, ?_, executions_spent hterms hruns,
    proposals_numbered hterms hruns, ?_, ?_⟩
  · rintro pre c post rfl hexecute
    obtain ⟨t, u, hpre, hmove⟩ := hruns.before
    obtain ⟨hbefore, hafter⟩ := moves_states hpre hmove
    have hvalid := (revenueVault_implements.stored_of_runs hpre).valid
    cases runs_governance hterms hpre hmove with
    | proposed signed => exact absurd (signed.1.2.2.symm.trans hexecute.2.2) (by decide)
    | voted signed => exact absurd (signed.1.2.2.symm.trans hexecute.2.2) (by decide)
    | executed _ ok =>
        refine ⟨t.proposal, ok.body, authorized_of_execute hterms hpre ok, t, t.executed, hbefore,
          hafter, ?_, rfl, rfl⟩
        exact (hvalid.proposal ok.stored).proposes.action_known
    | other _ not_execute => exact absurd hexecute not_execute
  · intro c hc hpropose
    obtain ⟨es, t, u, hpre, hmove, hbefore, -⟩ := runs_states hruns hc
    refine ⟨t, hbefore, ?_⟩
    cases runs_governance hterms hpre hmove with
    | proposed _ ok => exact ok.closed
    | voted signed => exact absurd (signed.1.2.2.symm.trans hpropose.2.2) (by decide)
    | executed accepted => exact absurd (accepted.2.2.symm.trans hpropose.2.2) (by decide)
    | other not_propose => exact absurd hpropose not_propose
  · intro c hc
    obtain ⟨es, t, u, hpre, hmove, hbefore, hafter⟩ := runs_states hruns hc
    refine ⟨t, u, hbefore, hafter, sameTerms_of_runs hterms hpre,
      sameTerms_of_runs hterms (hpre.snoc hmove), fun hno => ?_⟩
    cases runs_governance hterms hpre hmove with
    | proposed => exact ⟨rfl, rfl⟩
    | voted => exact ⟨rfl, rfl⟩
    | executed accepted => exact absurd accepted hno
    | other _ _ _ _ paused_eq fuelLimit_eq => exact ⟨paused_eq, fuelLimit_eq⟩

end

/-- A vault after a pause that was proposed, voted for and executed. -/
theorem governance_confined_sample :
    letI := Target.wasm32
    (∃ c ∈ sampleHistory, c.AcceptedMethod Ids.execute) ∧
      ∃ config s, Terms sampleStart config ∧ State.decode samplePaused.encode = .ok s ∧
        Governed config sampleHistory s := by
  let _ := Target.wasm32
  exact ⟨sampleHistory_accepts.2.2, governance_confined sampleHistoryRun⟩

end AvmSdk.Hub
