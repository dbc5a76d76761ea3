import AvmSdk.Contracts.Hub.Deployment

/-!
# One member of the vault

The calls that are about one member, and what they do to its account.

* `IsClaim`, `IsAnswer`: the accepted claims of a member, and the accepted callbacks from its
  account. `Pays`: what a claim sends.
* `MemberStep`: the changes of an account. `moves_member`: every call of the vault makes one of them.
* `Config.SameTerms`: no call changes the terms (`sameTerms_of_runs`).
-/

namespace AvmSdk.Hub

open Wire Sdk Contracts

/-! ## Calls about a member -/

/-- The terms of two configurations are the same: they differ at most in the fuel. -/
structure Config.SameTerms (c c' : Config) : Prop where
  signers : c'.signers = c.signers
  delay : c'.delay = c.delay
  voteWindow : c'.voteWindow = c.voteWindow
  count : c'.count = c.count
  members : c'.members = c.members

/-- The members of a configuration. -/
abbrev Active (config : Config) : Type := { i : Fin maxMembers // i.val < config.count.toNat }

/-- The configuration that a deployment names. -/
def Terms [Target] (start : MessageInput) (config : Config) : Prop :=
  ∃ deploy, start.deploy = .ok deploy ∧ Config.decode deploy.initData = .ok config

/-- An accepted claim of a member. -/
def IsClaim (i : Fin maxMembers) (c : Call) : Prop :=
  c.AcceptedMethod Ids.claim ∧ c.input.message.body = [BitVec.ofNat 8 i.val]

instance (i : Fin maxMembers) : DecidablePred (IsClaim i) :=
  fun _ => inferInstanceAs (Decidable (_ ∧ _))

/-- An accepted callback from the account of a member. -/
def IsAnswer (config : Config) (i : Fin maxMembers) (c : Call) : Prop :=
  c.AcceptedCallback ∧ c.input.caller = .internal (config.members i).destination

instance (config : Config) (i : Fin maxMembers) : DecidablePred (IsAnswer config i) :=
  fun _ => inferInstanceAs (Decidable (_ ∧ _))

/-- The call emits one message: the payment of an amount, and nothing else, to the account of a
member. It asks for a callback. -/
def Pays (config : Config) (i : Fin maxMembers) (nonce : U64) (amount : U128) (c : Call) : Prop :=
  (∃ fuel : U128, c.output.outboundIntents =
    [{ inputIndex := 0
       destination := (config.members i).destination
       fuelFeeShells := fuel
       extra := [⟨principalCurrencyId, amount⟩]
       methodId := Ids.receive
       body := paymentBody (BitVec.ofNat 8 i.val) nonce amount }]) ∧
    c.output.callbackIntents = [⟨0, Ids.callback⟩]

section

variable {config : Config} {i j : Fin maxMembers} {c : Call}

/-- Another method is not a claim, -/
theorem not_isClaim_of_asks {method : U64} {actor : Bytes32} (ask : Asks c.input method actor)
    (h : method ≠ Ids.claim) : ¬ IsClaim i c := fun hc => not_acceptedMethod_of_asks ask h hc.1

/-- a method is not an answer, -/
theorem not_isAnswer_of_asks {method : U64} {actor : Bytes32} (ask : Asks c.input method actor) :
    ¬ IsAnswer config i c := fun hc => ask.not_callback hc.1.2

/-- and a callback is not a claim. -/
theorem not_isClaim_of_returns {source : AccountAddress} {message : InternalMessage}
    {h : CallbackHeader} (ret : Returns c.input source message h) : ¬ IsClaim i c :=
  fun hc => not_acceptedMethod_of_returns ret hc.1

/-- The body of a claim names one member. -/
theorem eq_of_body {b : Bytes} (hi : b = [BitVec.ofNat 8 i.val])
    (hj : b = [BitVec.ofNat 8 j.val]) : i = j := by
  have hbyte : BitVec.ofNat 8 i.val = BitVec.ofNat 8 j.val := by
    rw [hi] at hj
    exact (List.cons.inj hj).1
  have hilt : i.val < 16 := i.isLt
  have hjlt : j.val < 16 := j.isLt
  have hvalue := congrArg BitVec.toNat hbyte
  rw [BitVec.toNat_ofNat, BitVec.toNat_ofNat, Nat.mod_eq_of_lt (by omega),
    Nat.mod_eq_of_lt (by omega)] at hvalue
  exact Fin.ext hvalue

end

/-! ## Changes of an account -/

/-- **What a call does to the account of a member.** -/
inductive MemberStep [Target] (config : Config) (i : Fin maxMembers) (c : Call) (m : MemberState) :
    MemberState → Prop
  /-- The member claims what it can. -/
  | claimed {nonce blockLt : U64} (claim : IsClaim i c) (pays : Pays config i nonce m.claimable c)
      (idle : m.pending = 0) (some : m.claimable ≠ 0) :
      MemberStep config i c m (State.lockMember m nonce blockLt)
  /-- The payment has arrived. -/
  | receipt {hash : Bytes32} (answer : IsAnswer config i c) (success : c.AcceptedReceipt)
      (body : c.input.message.body = paymentBody (BitVec.ofNat 8 i.val) m.nonce m.pending)
      (pending : m.pending ≠ 0) (later : m.lastCallbackLt < c.input.message.createdLt)
      (fits : m.paid.toNat + m.pending.toNat < 2 ^ 128) :
      MemberStep config i c m
        (State.unlockMember (State.payMember m) c.input.message.createdLt hash)
  /-- The payment has come back. -/
  | bounce {hash : Bytes32} (answer : IsAnswer config i c) (failure : c.AcceptedBounce)
      (amount : c.attached principalCurrencyId = m.pending.toNat)
      (pending : m.pending ≠ 0) (later : m.lastCallbackLt < c.input.message.createdLt) :
      MemberStep config i c m
        (State.unlockMember (State.refundMember m) c.input.message.createdLt hash)
  /-- The call is not about the member, and can only add to what it can claim. -/
  | other {claimable : U128} (not_claim : ¬ IsClaim i c) (not_answer : ¬ IsAnswer config i c) :
      MemberStep config i c m { m with claimable := claimable }

section

variable [Target] {config : Config} {s t : State} {c : Call} {o : Option Transfer}

omit [Target] in
/-- A configuration has its own terms, -/
theorem Config.SameTerms.refl (c : Config) : c.SameTerms c := ⟨rfl, rfl, rfl, rfl, rfl⟩

omit [Target] in
/-- and shares those of one that shares them. -/
theorem Config.SameTerms.trans {c c' c'' : Config} (h : c.SameTerms c') (h' : c'.SameTerms c'') :
    c.SameTerms c'' :=
  ⟨h'.signers.trans h.signers, h'.delay.trans h.delay, h'.voteWindow.trans h.voteWindow,
    h'.count.trans h.count, h'.members.trans h.members⟩

/-- No step changes the terms. -/
theorem Step.sameTerms {x : MessageInput} (hstep : Step x s t o) : s.config.SameTerms t.config := by
  cases hstep <;> exact ⟨rfl, rfl, rfl, rfl, rfl⟩

/-- No call changes the terms. -/
theorem moves_sameTerms (hmove : vaultMachine.Moves s c t) : s.config.SameTerms t.config := by
  rcases moves_cases hmove with ⟨o, hc⟩ | ⟨rfl, -⟩
  · exact hc.step.sameTerms
  · exact .refl _

/-- A deployment names one configuration. -/
theorem Terms.unique {start : MessageInput} {config' : Config} (h : Terms start config)
    (h' : Terms start config') : config = config' := by
  obtain ⟨deploy, hdeploy, hconfig⟩ := h
  obtain ⟨deploy', hdeploy', hconfig'⟩ := h'
  rw [hdeploy, Except.ok.injEq] at hdeploy'
  rw [← hdeploy', hconfig, Except.ok.injEq] at hconfig'
  exact hconfig'

/-- **The terms** of a run are those of the deployment. -/
theorem sameTerms_of_runs {start : MessageInput} {calls : List Call} (hterms : Terms start config)
    (hrun : vaultMachine.Runs start calls s) : config.SameTerms s.config := by
  refine hrun.stateInvariant (I := fun s => config.SameTerms s.config)
    (fun s hs => ?_) fun s c t hs hmove => hs.trans (moves_sameTerms hmove)
  rw [hterms.unique hs.2.config_eq]
  exact .refl _

/-- Every run has terms. -/
theorem exists_terms {start : MessageInput} {calls : List Call}
    (hrun : vaultMachine.Runs start calls s) : ∃ config, Terms start config :=
  hrun.stateInvariant (I := fun _ => ∃ config, Terms start config)
    (fun s hs => ⟨s.config, hs.2.config_eq⟩) fun _ _ _ hs _ => hs

/-- The states before and after a call of a run. -/
theorem moves_states {start : MessageInput} {calls : List Call}
    (hrun : vaultMachine.Runs start calls s) (hmove : vaultMachine.Moves s c t) :
    State.decode c.before = .ok s ∧ State.decode c.after = .ok t := by
  have hs := revenueVault_implements.stored_of_runs hrun
  have ht := revenueVault_implements.stored_of_runs (hrun.snoc hmove)
  rcases moves_cases hmove with ⟨o, hc⟩ | ⟨rfl, hc⟩
  · rw [hc.before, hc.after]
    exact ⟨hs.decode_encode, ht.decode_encode⟩
  · rw [hc.before, hc.after]
    exact ⟨hs.decode_encode, hs.decode_encode⟩

/-- Every call of a run, with the states before and after it. -/
theorem runs_states {start : MessageInput} {calls : List Call}
    (hrun : vaultMachine.Runs start calls s) (hc : c ∈ calls) :
    ∃ es t u, vaultMachine.Runs start es t ∧ vaultMachine.Moves t c u ∧
      State.decode c.before = .ok t ∧ State.decode c.after = .ok u := by
  obtain ⟨pre, post, rfl⟩ := List.append_of_mem hc
  obtain ⟨t, u, hpre, hmove⟩ := hrun.before
  exact ⟨pre, t, u, hpre, hmove, moves_states hpre hmove⟩

/-- The payment of a claim. -/
theorem pays_of_performs {i : Fin maxMembers} {nonce : U64} {amount : U128}
    (hsame : config.SameTerms s.config) (hc : Performs State.encode Step s c t
      (some (payment s i nonce amount))) : Pays config i nonce amount c := by
  refine ⟨⟨s.fuelLimit, ?_⟩, hc.callbacks⟩
  rw [hc.outbound, ← hsame.members]
  rfl

/-- An accepted callback message answers the member with that account. -/
theorem isAnswer_iff {source : AccountAddress} {message : InternalMessage} {h : CallbackHeader}
    {i j : Fin maxMembers} (hs : s.Stored) (hsame : config.SameTerms s.config)
    (haccepted : c.Accepted) (ret : Returns c.input source message h)
    (ok : CallbackOk c.input s source message h j) (hi : i.val < config.count.toNat) :
    IsAnswer config i c ↔ i = j := by
  have hsource : (config.members j).destination = source := by
    rw [← hsame.members]
    exact ok.source_eq
  constructor
  · rintro ⟨-, hcaller⟩
    rw [ret.caller, ← hsource, Caller.internal.injEq, ← hsame.members] at hcaller
    rw [← hsame.count] at hi
    exact (hs.valid.config.destination_injective ok.index_lt hi hcaller).symm
  · rintro rfl
    exact ⟨⟨haccepted, ret.is_callback⟩, by rw [ret.caller, hsource]⟩

omit [Target] in
/-- The header and the time of a callback message. -/
theorem createdLt_of_returns {source : AccountAddress} {message : InternalMessage}
    {h : CallbackHeader} (ret : Returns c.input source message h) :
    c.input.message.callbackHeader = some h ∧ c.input.message.createdLt = message.createdLt := by
  rw [ret.message_eq]
  exact ⟨ret.header, rfl⟩

/-- **Every call of the vault** changes the account of a member in one of four ways. -/
theorem moves_member (hs : s.Stored) (hsame : config.SameTerms s.config)
    (hmove : vaultMachine.Moves s c t) {i : Fin maxMembers} (hi : i.val < config.count.toNat) :
    MemberStep config i c (s.members i) (t.members i) := by
  rcases moves_cases hmove with ⟨o, hc⟩ | ⟨rfl, hc⟩
  · cases hc.step with
    | topup ask => exact .other (not_isClaim_of_asks ask (by decide)) (not_isAnswer_of_asks ask)
    | status ask => exact .other (not_isClaim_of_asks ask (by decide)) (not_isAnswer_of_asks ask)
    | propose ask => exact .other (not_isClaim_of_asks ask (by decide)) (not_isAnswer_of_asks ask)
    | vote ask => exact .other (not_isClaim_of_asks ask (by decide)) (not_isAnswer_of_asks ask)
    | execute ask => exact .other (not_isClaim_of_asks ask (by decide)) (not_isAnswer_of_asks ask)
    | @deposit _ next ask ok =>
        have hm : (s.deposited next).members i = { s.members i with
            claimable := BitVec.ofNat 128 ((s.members i).claimable.toNat + s.credit next i) } :=
          if_pos (by rw [hsame.count]; exact hi)
        rw [hm]
        exact .other (not_isClaim_of_asks ask (by decide)) (not_isAnswer_of_asks ask)
    | @claim _ j nonce ask free ok =>
        by_cases hij : i = j
        · subst hij
          have hclaim : IsClaim i c :=
            ⟨⟨hc.accepted, ask.not_callback, ask.method_eq⟩, ok.body⟩
          show MemberStep config i c (s.members i) ((s.withMember i _ _ _).members i)
          rw [State.withMember_self]
          exact .claimed hclaim (pays_of_performs hsame hc) ok.idle ok.some
        · show MemberStep config i c (s.members i) ((s.withMember j _ _ _).members i)
          rw [State.withMember_of_ne hij]
          exact .other (fun hclaim => hij (eq_of_body hclaim.2 ok.body)) (not_isAnswer_of_asks ask)
    | @receipt source message header j ret ok arrived =>
        have hanswer := isAnswer_iff hs hsame hc.accepted ret ok hi
        obtain ⟨hheader, hlt⟩ := createdLt_of_returns ret
        by_cases hij : i = j
        · subst hij
          show MemberStep config i c (s.members i) ((s.withMember i _ _ _).members i)
          rw [State.withMember_self, ← hlt]
          refine .receipt (hanswer.mpr rfl) ⟨⟨hc.accepted, ret.is_callback⟩, header, hheader,
            arrived.success⟩ ?_ ok.pending (hlt ▸ ok.later) (hs.valid.paid_add_lt ok.index_lt)
          rw [ret.message_eq]
          exact arrived.body
        · show MemberStep config i c (s.members i) ((s.withMember j _ _ _).members i)
          rw [State.withMember_of_ne hij]
          exact .other (not_isClaim_of_returns ret) (fun h => hij (hanswer.mp h))
    | @bounce source message header j ret ok returned =>
        have hanswer := isAnswer_iff hs hsame hc.accepted ret ok hi
        obtain ⟨hheader, hlt⟩ := createdLt_of_returns ret
        by_cases hij : i = j
        · subst hij
          show MemberStep config i c (s.members i) ((s.withMember i _ _ _).members i)
          rw [State.withMember_self, ← hlt]
          refine .bounce (hanswer.mpr rfl) ⟨⟨hc.accepted, ret.is_callback⟩, header, hheader,
            returned.failure⟩ ?_ ok.pending (hlt ▸ ok.later)
          have hextra : principal c.input.message.extra = (s.members i).pending := by
            rw [ret.message_eq]
            exact returned.amount
          rw [attached_principal hc.wellFormed, hextra]
        · show MemberStep config i c (s.members i) ((s.withMember j _ _ _).members i)
          rw [State.withMember_of_ne hij]
          exact .other (not_isClaim_of_returns ret) (fun h => hij (hanswer.mp h))
  · exact .other (fun hclaim => hc.refused hclaim.1.1) fun hanswer => hc.refused hanswer.1.1

end

end AvmSdk.Hub
