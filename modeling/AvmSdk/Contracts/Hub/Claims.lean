import AvmSdk.Contracts.Hub.Members
import AvmSdk.Contracts.Payments

/-!
# Claims and their settlement

What the history of a vault says about its claims: each is answered at most once, whatever callback
messages arrive.

* `moves_claim_cases`, `exists_answer`: the calls that make a claim, and those that answer one.
* `Answers`: a callback answers a claim. `memberLanes`: the members as lanes over which the vault
  pays. `memberLanes_runs`: every run of a vault is a run of its lanes.
* `SettlesOnce`, `claims_settle_once`: all of them, for every run.
-/

namespace AvmSdk.Hub

open Wire Sdk Contracts Trace

/-! ## Claims and answers -/

/-- The nonce of the payment that a call emits. -/
def sentNonce (c : Call) : ℕ :=
  (c.output.outboundIntents.map fun intent => (bodyNonce intent.body).toNat).headD 0

section

variable [Target] {config : Config} {s t : State} {c : Call} {start : MessageInput}
  {calls : List Call} {i : Fin maxMembers}

/-- A callback answers a claim: it reports the success of exactly this payment, or brings exactly
this amount back. -/
def Answers (config : Config) (i : Fin maxMembers) (a c : Call) : Prop :=
  IsAnswer config i c ∧ ∃ nonce amount, Pays config i nonce amount a ∧
    (c.AcceptedReceipt ∧
        c.input.message.body = paymentBody (BitVec.ofNat 8 i.val) nonce amount ∨
      c.AcceptedBounce ∧ c.attached principalCurrencyId = amount.toNat)

/-- The call makes a claim. -/
structure Claims (config : Config) (s : State) (c : Call) (t : State) (i : Fin maxMembers)
    (nonce : U64) : Prop where
  index_lt : i.val < config.count.toNat
  claim : IsClaim i c
  signed : c.input.caller = .external (config.members i).key
  pays : Pays config i nonce (s.members i).claimable c
  nonce_eq : s.claimNonce.toNat + 1 = nonce.toNat
  idle : (s.members i).pending = 0
  after : t = s.locked i nonce c.input.context.blockLt

/-- The call makes no claim: it sends nothing, and opens no account. -/
structure NoClaim (s : State) (c : Call) (t : State) : Prop where
  not_claim : ¬ c.AcceptedMethod Ids.claim
  silent : c.output.outboundIntents = []
  claimNonce_eq : t.claimNonce = s.claimNonce
  accounts : ∀ j, (t.members j).pending ≠ 0 →
    (t.members j).pending = (s.members j).pending ∧ (t.members j).nonce = (s.members j).nonce

omit [Target] in
/-- A call that only unlocks an account opens none. -/
theorem accounts_withMember {m : MemberState} {paid : U128} {claimNonce : U64}
    (hm : m.pending = 0) (j : Fin maxMembers)
    (hj : ((s.withMember i m paid claimNonce).members j).pending ≠ 0) :
    ((s.withMember i m paid claimNonce).members j).pending = (s.members j).pending ∧
      ((s.withMember i m paid claimNonce).members j).nonce = (s.members j).nonce := by
  by_cases hji : j = i
  · subst hji
    rw [State.withMember_self] at hj
    exact absurd hm hj
  · rw [State.withMember_of_ne hji]
    exact ⟨rfl, rfl⟩

/-- **A call makes a claim, or it sends nothing.** -/
theorem moves_claim_cases (hsame : config.SameTerms s.config)
    (hmove : vaultMachine.Moves s c t) :
    (∃ i nonce, Claims config s c t i nonce) ∨ NoClaim s c t := by
  have hasks {method : U64} {actor : Bytes32} (ask : Asks c.input method actor)
      (h : method ≠ Ids.claim) : ¬ c.AcceptedMethod Ids.claim := not_acceptedMethod_of_asks ask h
  rcases moves_cases hmove with ⟨o, hc⟩ | ⟨rfl, hc⟩
  · have hout := hc.outbound
    cases hc.step with
    | topup ask => exact .inr ⟨hasks ask (by decide), hout, rfl, fun _ _ => ⟨rfl, rfl⟩⟩
    | status ask => exact .inr ⟨hasks ask (by decide), hout, rfl, fun _ _ => ⟨rfl, rfl⟩⟩
    | propose ask => exact .inr ⟨hasks ask (by decide), hout, rfl, fun _ _ => ⟨rfl, rfl⟩⟩
    | vote ask => exact .inr ⟨hasks ask (by decide), hout, rfl, fun _ _ => ⟨rfl, rfl⟩⟩
    | execute ask => exact .inr ⟨hasks ask (by decide), hout, rfl, fun _ _ => ⟨rfl, rfl⟩⟩
    | @deposit _ next ask ok =>
        refine .inr ⟨hasks ask (by decide), hout, rfl, fun j _ => ?_⟩
        unfold State.deposited
        dsimp only
        split_ifs <;> exact ⟨rfl, rfl⟩
    | @claim actor i nonce ask free ok =>
        refine .inl ⟨i, nonce, ?_, ⟨⟨hc.accepted, ask.not_callback, ask.method_eq⟩, ok.body⟩, ?_,
          pays_of_performs hsame hc, ok.nonce_eq, ok.idle, rfl⟩
        · rw [← hsame.count]
          exact ok.index_lt
        · rw [ask.caller, ← ok.key, hsame.members]
    | receipt ret =>
        exact .inr ⟨not_acceptedMethod_of_returns ret, hout, rfl, accounts_withMember rfl⟩
    | bounce ret =>
        exact .inr ⟨not_acceptedMethod_of_returns ret, hout, rfl, accounts_withMember rfl⟩
  · exact .inr ⟨fun h => hc.refused h.1, hc.outbound, rfl, fun _ _ => ⟨rfl, rfl⟩⟩

/-- **An accepted callback** answers one member. -/
theorem exists_answer (hs : s.Stored) (hsame : config.SameTerms s.config)
    (hmove : vaultMachine.Moves s c t) (hcallback : c.AcceptedCallback) :
    ∃ i, i.val < config.count.toNat ∧ IsAnswer config i c ∧ (s.members i).pending ≠ 0 ∧
      ∃ m paid, m.pending = 0 ∧ t = s.withMember i m paid s.claimNonce := by
  rcases moves_cases hmove with ⟨o, hc⟩ | ⟨rfl, hc⟩
  · cases hc.step with
    | topup ask => exact absurd hcallback.2 ask.not_callback
    | status ask => exact absurd hcallback.2 ask.not_callback
    | propose ask => exact absurd hcallback.2 ask.not_callback
    | vote ask => exact absurd hcallback.2 ask.not_callback
    | execute ask => exact absurd hcallback.2 ask.not_callback
    | deposit ask => exact absurd hcallback.2 ask.not_callback
    | claim ask => exact absurd hcallback.2 ask.not_callback
    | @receipt _ _ _ i ret ok =>
        have hi : i.val < config.count.toNat := by
          rw [← hsame.count]
          exact ok.index_lt
        exact ⟨i, hi, (isAnswer_iff hs hsame hc.accepted ret ok hi).mpr rfl, ok.pending, _, _, rfl,
          rfl⟩
    | @bounce _ _ _ i ret ok =>
        have hi : i.val < config.count.toNat := by
          rw [← hsame.count]
          exact ok.index_lt
        exact ⟨i, hi, (isAnswer_iff hs hsame hc.accepted ret ok hi).mpr rfl, ok.pending, _, _, rfl,
          rfl⟩
  · exact absurd hcallback.1 hc.refused

/-! ## The members as lanes -/

/-- The members of a configuration as lanes of the vault. -/
def memberLanes (config : Config) : Payer (Active config) State where
  destination i := (config.members i).destination
  method := Ids.receive
  handler := Ids.callback
  body i := paymentBody (BitVec.ofNat 8 i.val.val)
  bodyNonce := bodyNonce
  bodyAmount := bodyAmount
  Dispatches := Call.AcceptedMethod Ids.claim
  decidableDispatches := inferInstance
  Opens i := IsClaim i.val
  decidableOpens _ := inferInstance
  lane s i := ⟨(s.members i).pending, (s.members i).nonce, (s.members i).lastCallbackLt,
    (s.members i).paid.toNat⟩
  counter := State.claimNonce

/-- A call of a run changes the account of a member in one of the four ways. -/
theorem runs_member (hterms : Terms start config) (hrun : vaultMachine.Runs start calls s)
    (hi : i.val < config.count.toNat) (hmove : vaultMachine.Moves s c t) :
    MemberStep config i c (s.members i) (t.members i) :=
  moves_member (revenueVault_implements.stored_of_runs hrun) (sameTerms_of_runs hterms hrun) hmove hi

/-- The change of an account is the change of a lane. -/
theorem laneStep_of_member {i : Active config}
    (hstep : MemberStep config i c (s.members i) (t.members i)) :
    (memberLanes config).LaneStep i c ((memberLanes config).lane s i)
      ((memberLanes config).lane t i) := by
  unfold memberLanes at *
  dsimp only at *
  generalize t.members i = m at hstep
  cases hstep with
  | claimed claim pays idle some => exact .opened claim pays idle some
  | receipt answer success body pending later fits =>
      have hpaid : ((s.members i).paid + (s.members i).pending).toNat =
          (s.members i).paid.toNat + (s.members i).pending.toNat := BitVec.toNat_add_of_lt fits
      have hlane : (memberLanes config).LaneStep i c ((memberLanes config).lane s i)
          ⟨0, 0, c.input.message.createdLt,
            (s.members i).paid.toNat + (s.members i).pending.toNat⟩ :=
        .receipt answer success body pending later
      rw [← hpaid] at hlane
      exact hlane
  | bounce answer failure amount pending later => exact .bounce answer failure amount pending later
  | other not_claim not_answer => exact .other not_claim not_answer

/-- The members have different accounts. -/
theorem memberLanes_lawful (hterms : Terms start config)
    (hrun : vaultMachine.Runs start calls s) : (memberLanes config).Lawful where
  destination_injective := by
    have hsame := sameTerms_of_runs hterms hrun
    have hvalid := (revenueVault_implements.stored_of_runs hrun).valid
    rintro ⟨i, hi⟩ ⟨j, hj⟩ heq
    unfold memberLanes at heq
    dsimp only at heq
    rw [← hsame.count] at hi hj
    rw [← hsame.members] at heq
    exact Subtype.ext (hvalid.config.destination_injective hi hj heq)
  opens_unique _ _ _ hi hj := Subtype.ext (eq_of_body hi.2 hj.2)
  opens_dispatches _ _ h := h.1
  dispatches_plain _ h := h.2.1
  bodyNonce_body _ _ _ := bodyNonce_paymentBody
  bodyAmount_body _ _ _ := bodyAmount_paymentBody

/-- **The runs of a vault** are runs of its lanes. -/
theorem memberLanes_runs (hterms : Terms start config) (hrun : vaultMachine.Runs start calls s) :
    (memberLanes config).Runs calls s := by
  refine hrun.lift (fun s hs => ⟨?_, fun i => ?_⟩) fun es s c t hrun hmove => ?_
  · show s.claimNonce = 0
    rw [hs.2.state_eq]
    rfl
  · unfold memberLanes
    dsimp only
    rw [hs.2.state_eq]
    rfl
  · have hsame := sameTerms_of_runs hterms hrun
    refine ⟨hmove.input_wellFormed,
      fun i => laneStep_of_member (runs_member hterms hrun i.property hmove),
      fun i hclaim => ?_, fun hclaim => ?_, fun hno => ?_, fun hcallback => ?_⟩
    · rcases moves_claim_cases hsame hmove with ⟨k, nonce, h⟩ | h
      · have hik : i.val = k := eq_of_body hclaim.2 h.claim.2
        have haccount : (t.members i.val).nonce = nonce := by
          rw [h.after, hik]
          show ((s.withMember k _ _ _).members k).nonce = nonce
          rw [State.withMember_self]
          rfl
        show s.claimNonce.toNat + 1 = (t.members i.val).nonce.toNat ∧
          t.claimNonce = (t.members i.val).nonce
        rw [haccount, h.after]
        exact ⟨h.nonce_eq, rfl⟩
      · exact absurd hclaim.1 h.not_claim
    · rcases moves_claim_cases hsame hmove with ⟨i, nonce, h⟩ | h
      · exact ⟨⟨i, h.index_lt⟩, h.claim⟩
      · exact absurd hclaim h.not_claim
    · rcases moves_claim_cases hsame hmove with ⟨i, nonce, h⟩ | h
      · exact absurd h.claim.1 hno
      · exact h.claimNonce_eq
    · obtain ⟨i, hi, hanswer, -⟩ := exists_answer (revenueVault_implements.stored_of_runs hrun)
        hsame hmove hcallback
      exact ⟨⟨i, hi⟩, hanswer⟩

/-! ## Frames -/

omit [Target] in
/-- The account of a member after a claim. -/
theorem Claims.account {nonce : U64} (h : Claims config s c t i nonce) {j : Fin maxMembers}
    (hji : j ≠ i) : t.members j = s.members j := by
  rw [h.after]
  exact State.withMember_of_ne hji

/-- A call about one member leaves the accounts of the others. -/
theorem others_unchanged (hterms : Terms start config) (hrun : vaultMachine.Runs start calls s)
    (hmove : vaultMachine.Moves s c t) (hi : i.val < config.count.toNat)
    (habout : IsClaim i c ∨ IsAnswer config i c) {j : Fin maxMembers} (hji : j ≠ i) :
    t.members j = s.members j := by
  have hstored := revenueVault_implements.stored_of_runs hrun
  have hsame := sameTerms_of_runs hterms hrun
  rcases habout with hclaim | hanswer
  · rcases moves_claim_cases hsame hmove with ⟨k, nonce, h⟩ | h
    · have hik := eq_of_body hclaim.2 h.claim.2
      subst hik
      exact h.account hji
    · exact absurd hclaim.1 h.not_claim
  · obtain ⟨k, hk, hanswer', -, m, paid, -, rfl⟩ := exists_answer hstored hsame hmove hanswer.1
    have hcaller := hanswer.2.symm.trans hanswer'.2
    rw [Caller.internal.injEq, ← hsame.members] at hcaller
    rw [← hsame.count] at hi hk
    obtain rfl := hstored.valid.config.destination_injective hi hk hcaller
    exact State.withMember_of_ne hji

/-- A deposit changes what was received, and what the members can claim. -/
theorem deposit_unchanged (hmove : vaultMachine.Moves s c t)
    (hdeposit : c.AcceptedMethod Ids.deposit) :
    t = { s with
      received := t.received
      members := fun i => { s.members i with claimable := (t.members i).claimable } } := by
  have hmethod {method : U64} {actor : Bytes32} (ask : Asks c.input method actor) :
      method = Ids.deposit := ask.method_eq.symm.trans hdeposit.2.2
  rcases moves_cases hmove with ⟨o, hc⟩ | ⟨rfl, hc⟩
  · cases hc.step with
    | topup ask => exact absurd (hmethod ask) (by decide)
    | status ask => exact absurd (hmethod ask) (by decide)
    | propose ask => exact absurd (hmethod ask) (by decide)
    | vote ask => exact absurd (hmethod ask) (by decide)
    | execute ask => exact absurd (hmethod ask) (by decide)
    | claim ask => exact absurd (hmethod ask) (by decide)
    | receipt ret => exact absurd ret.is_callback hdeposit.2.1
    | bounce ret => exact absurd ret.is_callback hdeposit.2.1
    | deposit =>
        unfold State.deposited
        dsimp only
        congr 1
        funext i
        split_ifs <;> rfl
  · exact absurd hdeposit.1 hc.refused

/-! ## The claims of a vault -/

/-- **Claims settle exactly once**: what the history of a vault with this configuration, which is
now in a state, says about its claims. -/
structure SettlesOnce (config : Config) (calls : List Call) (s : State) : Prop where
  /-- The claims and the answers of a member alternate, and each answer is for the claim before. -/
  alternate : ∀ i : Fin maxMembers, i.val < config.count.toNat →
    Alternates (IsClaim i) (Answers config i)
      (calls.filter fun c => IsClaim i c ∨ IsAnswer config i c)
  /-- The answers of a member ascend in time. -/
  ascend : ∀ i : Fin maxMembers, i.val < config.count.toNat →
    ((calls.filter (IsAnswer config i ·)).map fun c => c.input.message.createdLt.toNat).Pairwise
      (· < ·)
  /-- No callback message is accepted twice. -/
  once : ((calls.filter (Call.AcceptedCallback ·)).map fun c => c.input.message).Nodup
  /-- What a member was paid is the sum of its receipts. -/
  paid : ∀ i : Fin maxMembers, i.val < config.count.toNat →
    (s.members i).paid.toNat =
      ((calls.filter fun c => IsAnswer config i c ∧ c.AcceptedReceipt).map fun c =>
        (bodyAmount c.input.message.body).toNat).sum
  /-- No two receipts are for the same nonce. -/
  receipts : ((calls.filter (Call.AcceptedReceipt ·)).map fun c =>
    (bodyNonce c.input.message.body).toNat).Nodup
  /-- The claims are numbered 1, 2, 3 and so on. -/
  numbered : (calls.filter (Call.AcceptedMethod Ids.claim ·)).map sentNonce =
    List.range' 1 s.claimNonce.toNat
  /-- Only claims emit messages: a member's key signs, and its whole balance goes to its account. -/
  emits : ∀ c ∈ calls, c.output.outboundIntents ≠ [] → ∃ (i : Fin maxMembers) (nonce : U64)
    (before : State), i.val < config.count.toNat ∧ IsClaim i c ∧
      c.input.caller = .external (config.members i).key ∧ State.decode c.before = .ok before ∧
      Pays config i nonce (before.members i).claimable c
  /-- A claim emits a message. -/
  claims_emit : ∀ c ∈ calls, c.AcceptedMethod Ids.claim → c.output.outboundIntents ≠ []
  /-- A call about a member leaves the other accounts, and a deposit changes only what was received
  and what can be claimed. -/
  frame : ∀ c ∈ calls, ∃ before after, State.decode c.before = .ok before ∧
    State.decode c.after = .ok after ∧
    (∀ i : Fin maxMembers, i.val < config.count.toNat → IsClaim i c ∨ IsAnswer config i c →
      ∀ j, j ≠ i → after.members j = before.members j) ∧
    (c.AcceptedMethod Ids.deposit → after = { before with
      received := after.received
      members := fun i => { before.members i with claimable := (after.members i).claimable } })

/-- **Claims settle exactly once**, in every run of a vault and for every callback message. -/
theorem claims_settle_once {b : Bytes} (hrun : revenueVault.Runs start calls b) :
    ∃ config s, Terms start config ∧ State.decode b = .ok s ∧ SettlesOnce config calls s := by
  obtain ⟨s, hruns, hstored, rfl⟩ := revenueVault_implements.runs hrun
  obtain ⟨config, hterms⟩ := exists_terms hruns
  have hlawful := memberLanes_lawful hterms hruns
  have hlanes := memberLanes_runs hterms hruns
  refine ⟨config, s, hterms, hstored.decode_encode, fun i hi => Payer.alternates hlanes ⟨i, hi⟩,
    fun i hi => (Payer.answers_ascend hlawful hlanes ⟨i, hi⟩).1, Payer.answers_nodup hlawful hlanes,
    fun i hi => Payer.settled_eq hlawful hlanes ⟨i, hi⟩, Payer.receipts_spent hlawful hlanes,
    Payer.dispatches_numbered hlawful hlanes, ?_, ?_, ?_⟩
  · intro c hc hemits
    obtain ⟨es, t, u, hpre, hmove, hbefore, -⟩ := runs_states hruns hc
    rcases moves_claim_cases (sameTerms_of_runs hterms hpre) hmove with ⟨i, nonce, h⟩ | h
    · exact ⟨i, nonce, t, h.index_lt, h.claim, h.signed, hbefore, h.pays⟩
    · exact absurd h.silent hemits
  · intro c hc hclaim
    obtain ⟨es, t, u, hpre, hmove, -, -⟩ := runs_states hruns hc
    rcases moves_claim_cases (sameTerms_of_runs hterms hpre) hmove with ⟨i, nonce, h⟩ | h
    · obtain ⟨⟨fuel, hout⟩, -⟩ := h.pays
      rw [hout]
      exact List.cons_ne_nil _ _
    · exact absurd hclaim h.not_claim
  · intro c hc
    obtain ⟨es, t, u, hpre, hmove, hbefore, hafter⟩ := runs_states hruns hc
    exact ⟨t, u, hbefore, hafter,
      fun i hi habout j hji => others_unchanged hterms hpre hmove hi habout hji,
      fun hdeposit => deposit_unchanged hmove hdeposit⟩

end

/-- A vault after a payment that arrived, one that came back, and a second try. -/
theorem claims_settle_once_sample :
    letI := Target.wasm32
    (∃ c ∈ sampleHistory, c.AcceptedReceipt) ∧ (∃ c ∈ sampleHistory, c.AcceptedBounce) ∧
      ∃ config s, Terms sampleStart config ∧ State.decode samplePaused.encode = .ok s ∧
        SettlesOnce config sampleHistory s := by
  let _ := Target.wasm32
  obtain ⟨hreceipt, hbounce, -⟩ := sampleHistory_accepts
  exact ⟨hreceipt, hbounce, claims_settle_once sampleHistoryRun⟩

end AvmSdk.Hub
