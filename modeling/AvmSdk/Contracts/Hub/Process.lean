import AvmSdk.Contracts.Hub.Step

/-!
# The message handler and its steps

The handler of the vault succeeds on a stored state exactly when a step is possible.

* `topup_ok_iff` to `callback_ok_iff`: one for each method, from its checks to the fields of `Step`.
* `process_ok`: a successful call is a step, and stores the state after it.
* `process_of_step`: every step succeeds. No check of the result stops it.
-/

namespace AvmSdk.Hub

open Wire Sdk Contracts

section

variable [Target] {x : MessageInput} {s t : State} {o : Option Transfer} {out : MessageOutput}
  {actor : Bytes32} {name : String} {index : U8} {amount : U128}

/-! ## Reports -/

/-- A finished call stores a valid state and reports one event. -/
theorem finish_inv (h : finish s name index amount = .ok out) :
    s.Valid ∧ ∃ e, out = announced s.encode e := by
  simp only [finish, bind_ok_iff, pure_ok_iff] at h
  obtain ⟨_, hvalid, -, -, -, -, -, -, e, -, rfl⟩ := h
  exact ⟨State.validate_ok_iff.mp hvalid, e, rfl⟩

/-- **Finishing** never fails on a valid state. -/
theorem State.Valid.exists_finish (h : s.Valid) (name : String) (index : U8) (amount : U128)
    (hname : ∃ id, eventClass name = .ok id) :
    ∃ e, finish s name index amount = .ok (announced s.encode e) := by
  obtain ⟨id, hname⟩ := hname
  obtain ⟨dust, hdust⟩ := h.exists_dust
  obtain ⟨held, hheld, -⟩ := h.exists_held
  obtain ⟨pending, hpending, -⟩ := h.exists_pending
  have hvalidate : s.validate = .ok () := State.validate_ok_iff.mpr h
  have hevent : ∃ e, event 0 name [⟨"amount", .u128 amount⟩, ⟨"dust", .u128 dust⟩,
      ⟨"held", .u128 held⟩, ⟨"member", .u64 (index.zeroExtend 64)⟩, ⟨"nonce", .u64 s.claimNonce⟩,
      ⟨"paid", .u128 s.paid⟩, ⟨"paused", .u64 (if s.paused then 1 else 0)⟩,
      ⟨"pending", .u128 pending⟩, ⟨"proposal", .u64 s.proposalNonce⟩,
      ⟨"received", .u128 s.received⟩] = .ok e := by
    refine exists_event hname (by simp only [List.length_cons, List.length_nil]; decide) ?_ ?_
    · simp only [List.forall_mem_cons, EventField.Fits, EventField.packed, EventValue.encoded,
        length_toLe]
      decide
    · simp only [List.map_cons, List.map_nil, EventField.packed]
      decide
  obtain ⟨e, he⟩ := hevent
  exact ⟨e, by simp only [finish, hvalidate, hdust, hheld, hpending, he, ok_bind]; rfl⟩

/-! ## Methods -/

/-- When fees are taken, -/
theorem topup_ok_iff :
    topup x s = .ok out ↔ TopupOk x ∧ finish s "hub.fees_added" 255 0 = .ok out := by
  simp only [topup, bind_ok_iff, noBody_ok_iff, failIf_ok_iff, exists_const]
  constructor
  · rintro ⟨hbody, hguard, hfinish⟩
    push Not at hguard
    exact ⟨⟨hbody, hguard.1, hguard.2⟩, hfinish⟩
  · rintro ⟨ok, hfinish⟩
    refine ⟨ok.body, ?_, hfinish⟩
    push Not
    exact ⟨ok.some, ok.fees⟩

/-- when the status is reported, -/
theorem status_ok_iff :
    status x s = .ok out ↔ x.message.body = [] ∧ finish s "hub.status" 255 0 = .ok out := by
  simp only [status, bind_ok_iff, noBody_ok_iff, exists_const]

/-- and when a deposit is taken. -/
theorem deposit_ok_iff (h : s.Valid) : deposit x s = .ok out ↔ ∃ next, DepositOk x s next ∧
    finish (s.deposited next) "hub.deposited" 255 (principal x.message.extra) = .ok out := by
  simp only [deposit, bind_ok_iff, noBody_ok_iff, failIf_ok_iff, exists_const, h.held_ok_iff,
    h.deposit_ok_iff, covered_iff]
  constructor
  · rintro ⟨hbody, hpaused, hcurrencies, hsome, held, hheld, hbalance, t, ⟨-, next, hnext, rfl⟩,
      hfinish⟩
    push Not at hcurrencies
    exact ⟨next, ⟨hbody, Bool.eq_false_iff.mpr hpaused, hcurrencies, hsome, hheld ▸ hbalance,
      hnext⟩, hfinish⟩
  · rintro ⟨next, ok, hfinish⟩
    obtain ⟨held, hheld, hvalue⟩ := h.exists_held
    refine ⟨ok.body, Bool.eq_false_iff.mp ok.running, ?_, ok.some, held, hvalue,
      hvalue ▸ ok.balance, s.deposited next, ⟨ok.some, next, ok.next_eq, rfl⟩, hfinish⟩
    push Not
    exact ok.currencies

omit [Target] in
/-- A body of one byte that names a member. -/
theorem memberBody_iff {body : Bytes} (hc : s.config.Valid) {i : Fin maxMembers} :
    ¬ (body.length ≠ 1 ∨ s.config.count ≤ body.getD 0 0) ∧ memberIndex (body.getD 0 0) = i ↔
      body = [BitVec.ofNat 8 i.val] ∧ i.val < s.config.count.toNat := by
  have hle := hc.count_le
  constructor
  · rintro ⟨hguard, rfl⟩
    rw [not_or, not_not, BitVec.not_le, BitVec.lt_def] at hguard
    obtain ⟨hlen, hlt⟩ := hguard
    obtain ⟨b, rfl⟩ := List.length_eq_one_iff.mp hlen
    rw [List.getD_cons_zero] at hlt ⊢
    have hval : (memberIndex b).val = b.toNat := Nat.mod_eq_of_lt (by omega)
    rw [hval]
    exact ⟨by simp, hlt⟩
  · rintro ⟨rfl, hi⟩
    have hval : (BitVec.ofNat 8 i.val).toNat = i.val := by
      rw [BitVec.toNat_ofNat, Nat.mod_eq_of_lt (by omega)]
    rw [not_or, not_not, BitVec.not_le, BitVec.lt_def, List.getD_cons_zero, hval]
    exact ⟨⟨rfl, hi⟩, Fin.ext ((congrArg (· % maxMembers) hval).trans (Nat.mod_eq_of_lt i.isLt))⟩

/-- When a claim is paid. -/
theorem claim_ok_iff (h : s.Valid) : claim x actor s = .ok out ↔
    ∃ i nonce, ClaimOk x actor s i nonce ∧ ∃ out',
      finish (s.locked i nonce x.context.blockLt) "hub.claim_pending" (BitVec.ofNat 8 i.val)
        (s.members i).claimable = .ok out' ∧
      (payment s i nonce (s.members i).claimable).emitted out' = out := by
  simp only [claim, bind_ok_iff, failIf_ok_iff, exists_const, h.held_ok_iff, okOr_ok_iff,
    wordCheckedAdd_eq_some, pure_ok_iff]
  constructor
  · rintro ⟨hguard, hkey, hpaused, hidle, hsome, held, hheld, hbalance, nonce, hnonce, out',
      hfinish, hout⟩
    obtain ⟨hbody, hi⟩ := (memberBody_iff h.config).mp ⟨hguard, rfl⟩
    rw [not_or, BitVec.not_lt, BitVec.le_def, hheld, not_not] at hbalance
    exact ⟨_, nonce, ⟨hbody, hi, (not_not.mp hkey).symm, Bool.eq_false_iff.mpr hpaused,
      not_not.mp hidle, hsome, hbalance.1, hbalance.2, hnonce⟩, out', hfinish, hout⟩
  · rintro ⟨i, nonce, ok, out', hfinish, hout⟩
    obtain ⟨held, -, hvalue⟩ := h.exists_held
    obtain ⟨hguard, hindex⟩ := (memberBody_iff h.config).mpr ⟨ok.body, ok.index_lt⟩
    rw [hindex]
    refine ⟨hguard, not_not.mpr ok.key.symm, Bool.eq_false_iff.mp ok.running,
      not_not.mpr ok.idle, ok.some, held, hvalue, ?_, nonce, ok.nonce_eq, out', hfinish, hout⟩
    rw [not_or, BitVec.not_lt, BitVec.le_def, hvalue, not_not]
    exact ⟨ok.balance, ok.fuel⟩

omit [Target] in
/-- The signer that a key belongs to. -/
theorem signer_ok_iff {c : Config} (hc : c.Valid) {i : Fin 3} :
    c.signer actor = .ok i ↔ c.signers i = actor := by
  have hunique : ∀ i ∈ List.finRange 3, ∀ j ∈ List.finRange 3, c.signers i = actor →
      c.signers j = actor → i = j := fun i _ j _ hi hj => hc.signers_injective (hi.trans hj.symm)
  rw [Config.signer, okOr_ok_iff, find?_eq_some_iff_of_unique hunique]
  simp

omit [Target] in
/-- A new proposal in the words of the code. -/
theorem State.Stored.proposed_eq (h : s.Stored) (p : Proposal) :
    ({ s with proposal := p, proposalNonce := p.nonce } : State) = s.proposed p := by
  unfold State.proposed State.governed
  rw [← h.fuel_eq]

omit [Target] in
/-- A vote in the words of the code. -/
theorem State.Stored.voted_eq (h : s.Stored) (signer : Fin 3) :
    ({ s with proposal := { s.proposal with
      votes := s.proposal.votes ||| voteBit signer } } : State) = s.voted signer := by
  unfold State.voted State.governed
  rw [← h.fuel_eq]

/-- When a proposal is taken. -/
theorem propose_ok_iff (h : s.Stored) : propose x actor s = .ok out ↔
    ∃ signer p, ProposeOk x actor s signer p ∧
      finish (s.proposed p) "hub.proposed" 255 p.value = .ok out := by
  simp only [propose, bind_ok_iff, failIf_ok_iff, exists_const, okOr_ok_iff,
    wordCheckedAdd_eq_some, signer_ok_iff h.valid.config]
  constructor
  · rintro ⟨signer, hsigner, ⟨nonce, action, value⟩, hbody, hclosed, next, hnext, hnonce, ready,
      hready, expires, hexpires, hfinish⟩
    obtain ⟨hproposes, hbody⟩ := Proposal.decodeBody_ok_iff.mp hbody
    obtain rfl := not_not.mp hnonce
    rw [not_and, BitVec.not_lt] at hclosed
    refine ⟨signer, ⟨nonce, action, voteBit signer, value, x.context.blockTime, ready, expires⟩,
      ⟨hsigner, hproposes, hbody, hclosed, hnext, rfl, rfl, hready, hexpires⟩, ?_⟩
    rw [← h.proposed_eq]
    exact hfinish
  · rintro ⟨signer, p, ok, hfinish⟩
    have hp : p = ⟨p.nonce, p.action, voteBit signer, p.value, x.context.blockTime, p.ready,
      p.expires⟩ := by rw [← ok.votes_eq, ← ok.created_eq]
    refine ⟨signer, ok.signer_eq, (p.nonce, p.action, p.value),
      Proposal.decodeBody_ok_iff.mpr ⟨ok.proposes, ok.body⟩, ?_, p.nonce, ok.nonce_eq,
      not_not.mpr rfl, p.ready, ok.ready_eq, p.expires, ok.expires_eq, ?_⟩
    · rw [not_and, BitVec.not_lt]
      exact ok.closed
    · rw [← h.proposed_eq, hp] at hfinish
      exact hfinish

/-- The value stands behind nonce and action in a body. -/
theorem snapshotValue_body (p : Proposal) : snapshotValue p.body = .ok p.value := by
  have hlen := p.length_body
  have hsplit : p.body = (toLe p.nonce ++ [p.action]) ++ toLe p.value := by
    simp [Proposal.body]
  have hfront : (toLe p.nonce ++ [p.action]).length = 9 := by simp
  rw [snapshotValue, wordAt_ok_iff (by omega) (by decide) (by omega), hsplit,
    List.extract_eq_take_drop, List.drop_append_of_le_length (by rw [hfront]), ← hfront,
    List.drop_length, List.nil_append, List.take_of_length_le (by rw [length_toLe, hfront])]

/-- When a vote is taken. -/
theorem vote_ok_iff (h : s.Stored) : vote x actor s = .ok out ↔
    ∃ signer, VoteOk x actor s signer ∧
      finish (s.voted signer) "hub.voted" 255 s.proposal.value = .ok out := by
  simp only [vote, bind_ok_iff, failIf_ok_iff, exists_const, signer_ok_iff h.valid.config,
    h.voted_eq]
  constructor
  · rintro ⟨signer, hsigner, _, -, hstored, hexpired, hfresh, value, hvalue, hfinish⟩
    rw [not_or, not_not] at hstored
    rw [hstored.2, snapshotValue_body, Except.ok.injEq] at hvalue
    subst hvalue
    exact ⟨signer, ⟨hsigner, hstored.1, hstored.2, BitVec.not_le.mp hexpired, not_not.mp hfresh⟩,
      hfinish⟩
  · rintro ⟨signer, ok, hfinish⟩
    have hproposes := (h.valid.proposal ok.stored).proposes
    refine ⟨signer, ok.signer_eq, (s.proposal.nonce, s.proposal.action, s.proposal.value), ?_, ?_,
      BitVec.not_le.mpr ok.not_expired, not_not.mpr ok.fresh, s.proposal.value, ?_, hfinish⟩
    · exact Proposal.decodeBody_ok_iff.mpr ⟨hproposes, ok.body⟩
    · rw [not_or, not_not]
      exact ⟨ok.stored, ok.body⟩
    · rw [ok.body]
      exact snapshotValue_body _

omit [Target] in
/-- A stored proposal has an effect. -/
theorem enact_eq (h : s.Stored) (hstored : s.proposal.nonce ≠ 0) :
    ∃ t, enact s = .ok t ∧ { t with proposal := Proposal.default } =
      s.governed Proposal.default s.proposalNonce s.nextPaused s.nextFuelLimit s.fuelLimit := by
  unfold enact State.governed State.nextPaused State.nextFuelLimit
  rw [← h.fuel_eq]
  rcases (h.valid.proposal hstored).proposes.action_known with haction | haction | haction <;>
    rw [haction]
  · exact ⟨_, rfl, rfl⟩
  · exact ⟨_, rfl, rfl⟩
  · exact ⟨_, rfl, rfl⟩

omit [Target] in
/-- The state after an execution, with the initial fuel that the handler leaves in memory. -/
theorem State.Valid.executing (h : s.Valid) (hstored : s.proposal.nonce ≠ 0) :
    (s.governed Proposal.default s.proposalNonce s.nextPaused s.nextFuelLimit
      s.fuelLimit).Valid :=
  h.governed (h.nextFuelLimit_ne_zero hstored) h.fuelLimit_ne_zero (fun _ => rfl)
    fun hno => absurd rfl hno

/-- When a proposal is executed. -/
theorem execute_ok_iff (h : s.Stored) : execute x s = .ok out ↔ ExecuteOk x s ∧
    finish (s.governed Proposal.default s.proposalNonce s.nextPaused s.nextFuelLimit s.fuelLimit)
      "hub.executed" 255 s.proposal.value = .ok out := by
  simp only [execute, bind_ok_iff, failIf_ok_iff, exists_const]
  constructor
  · rintro ⟨hlen, hstored, nonce, hnonce, heq, hexpired, hquorum, hready, t, ht, hfinish⟩
    rw [not_not] at hlen heq
    obtain ⟨u, hu, hpost⟩ := enact_eq h hstored
    rw [hu, Except.ok.injEq] at ht
    rw [← ht, hpost] at hfinish
    rw [wordAt_ok_iff (by omega) (by decide) (by omega), heq, Nat.zero_add,
      extract_zero_length hlen] at hnonce
    exact ⟨⟨hstored, hnonce.symm, BitVec.not_le.mp hexpired, Nat.not_lt.mp hquorum,
      BitVec.not_lt.mp hready⟩, hfinish⟩
  · rintro ⟨ok, hfinish⟩
    obtain ⟨u, hu, hpost⟩ := enact_eq h ok.stored
    have hlen : x.message.body.length = 8 := by rw [ok.body, length_toLe]
    refine ⟨not_not.mpr hlen, ok.stored, s.proposal.nonce, ?_, not_not.mpr rfl,
      BitVec.not_le.mpr ok.not_expired, Nat.not_lt.mpr ok.quorum, BitVec.not_lt.mpr ok.ready, u, hu,
      ?_⟩
    · rw [wordAt_ok_iff (by omega) (by decide) (by omega), Nat.zero_add, extract_zero_length hlen,
        ok.body]
    · rw [hpost]
      exact hfinish

/-! ## Callbacks -/

section

variable {source : AccountAddress} {message : InternalMessage} {h : CallbackHeader}
  {i : Fin maxMembers}

omit [Target] in
/-- The member that a destination belongs to. -/
theorem destination_find_iff {c : Config} (hc : c.Valid) :
    (firstIndices maxMembers c.count.toNat).find?
        (fun i => (c.members i).destination = source) = some i ↔
      i.val < c.count.toNat ∧ (c.members i).destination = source := by
  have hunique : ∀ i ∈ firstIndices maxMembers c.count.toNat,
      ∀ j ∈ firstIndices maxMembers c.count.toNat, (c.members i).destination = source →
        (c.members j).destination = source → i = j := by
    intro i hi j hj hisource hjsource
    exact hc.destination_injective (mem_firstIndices.mp hi) (mem_firstIndices.mp hj)
      (hisource.trans hjsource.symm)
  rw [find?_eq_some_iff_of_unique hunique, mem_firstIndices]

/-- When a receipt settles a payment, -/
theorem settle_ok_iff (hs : s.Valid) (hi : i.val < s.config.count.toNat)
    (hstatus : h.statusCode = 0) : settle message h s i = .ok t ↔
      ReceiptOk s message h i ∧ s.settled i message.createdLt h.causeMsgHash = t := by
  simp only [settle, bind_ok_iff, failIf_ok_iff, exists_const, okOr_ok_iff,
    wordCheckedAdd_of_lt (hs.paid_add_lt hi), wordCheckedAdd_of_lt (hs.total_add_lt i),
    pure_ok_iff, Option.some.injEq, exists_eq_left']
  constructor
  · rintro ⟨hguard, rfl⟩
    push Not at hguard
    exact ⟨⟨hstatus, hguard.1, hguard.2⟩, rfl⟩
  · rintro ⟨ok, rfl⟩
    refine ⟨?_, rfl⟩
    push Not
    exact ⟨ok.fees, ok.body⟩

/-- and when a bounce releases it. -/
theorem release_ok_iff (hs : s.Valid) (hi : i.val < s.config.count.toNat)
    (hstatus : h.statusCode ≠ 0) : release message h s i = .ok t ↔
      BounceOk s message h i ∧ s.released i message.createdLt h.causeMsgHash = t := by
  simp only [release, bind_ok_iff, failIf_ok_iff, exists_const, okOr_ok_iff,
    wordCheckedAdd_of_lt (hs.claimable_add_lt hi), pure_ok_iff, Option.some.injEq,
    exists_eq_left']
  constructor
  · rintro ⟨hguard, rfl⟩
    push Not at hguard
    exact ⟨⟨hstatus, hguard.1, hguard.2⟩, rfl⟩
  · rintro ⟨ok, rfl⟩
    refine ⟨?_, rfl⟩
    push Not
    exact ⟨ok.amount, ok.body⟩

/-- What the test of a callback lets through. -/
theorem not_callbackRejected_iff (hi : i.val < s.config.count.toNat)
    (hsource : (s.config.members i).destination = source) :
    ¬ CallbackRejected x message h (s.members i) ↔ CallbackOk x s source message h i := by
  unfold CallbackRejected
  push Not
  constructor
  · rintro ⟨hpending, hmethod, hcause, hzero, hfresh, hafter, hlater, hrequest, hcurrencies⟩
    exact ⟨hi, hsource, hpending, hmethod, hcause, hzero, hfresh, BitVec.not_le.mp hafter,
      BitVec.not_le.mp hlater, hrequest, fun c hc => by have := hcurrencies c hc; tauto⟩
  · intro ok
    exact ⟨ok.pending, ok.method_eq, ok.cause, ok.hash_ne_zero, ok.hash_fresh,
      BitVec.not_le.mpr ok.after, BitVec.not_le.mpr ok.later, ok.no_request,
      fun c hc => by have := ok.currencies c hc; tauto⟩

/-- When a callback is accepted: as a receipt, or as a bounce. -/
theorem callback_ok_iff (hs : s.Valid) (ret : Returns x source message h) :
    callback x s = .ok out ↔ ∃ i, CallbackOk x s source message h i ∧
      (ReceiptOk s message h i ∧ finish (s.settled i message.createdLt h.causeMsgHash)
          "hub.claim_settled" (BitVec.ofNat 8 i.val) (s.members i).pending = .ok out ∨
        BounceOk s message h i ∧ finish (s.released i message.createdLt h.causeMsgHash)
          "hub.claim_failed" (BitVec.ofNat 8 i.val) (s.members i).pending = .ok out) := by
  simp only [callback, ret.caller, ret.message_eq, ret.header, okOr_some, ok_bind, bind_ok_iff,
    okOr_ok_iff, failIf_ok_iff, exists_const, destination_find_iff hs.config]
  constructor
  · rintro ⟨i, ⟨hi, hsource⟩, hguard, hrest⟩
    rw [not_callbackRejected_iff hi hsource] at hguard
    refine ⟨i, hguard, ?_⟩
    by_cases hstatus : h.statusCode = 0
    · rw [if_pos hstatus, bind_ok_iff] at hrest
      obtain ⟨t, ht, hfinish⟩ := hrest
      obtain ⟨ok, rfl⟩ := (settle_ok_iff hs hi hstatus).mp ht
      exact .inl ⟨ok, hfinish⟩
    · rw [if_neg hstatus, bind_ok_iff] at hrest
      obtain ⟨t, ht, hfinish⟩ := hrest
      obtain ⟨ok, rfl⟩ := (release_ok_iff hs hi hstatus).mp ht
      exact .inr ⟨ok, hfinish⟩
  · rintro ⟨i, ok, hrest⟩
    refine ⟨i, ⟨ok.index_lt, ok.source_eq⟩,
      (not_callbackRejected_iff ok.index_lt ok.source_eq).mpr ok, ?_⟩
    rcases hrest with ⟨arrived, hfinish⟩ | ⟨returned, hfinish⟩
    · rw [if_pos arrived.success,
        (settle_ok_iff hs ok.index_lt arrived.success).mpr ⟨arrived, rfl⟩]
      exact hfinish
    · rw [if_neg returned.failure,
        (release_ok_iff hs ok.index_lt returned.failure).mpr ⟨returned, rfl⟩]
      exact hfinish

/-- A callback that gets through comes from an account and has a header. -/
theorem returns_of_callback (hcallback : x.message.isCallback) (h : callback x s = .ok out) :
    ∃ source message h, Returns x source message h := by
  unfold callback at h
  split at h
  next source message hcaller hmessage =>
    rw [bind_ok_iff] at h
    obtain ⟨header, hheader, -⟩ := h
    exact ⟨source, message, header, hcallback, hcaller, hmessage, okOr_ok_iff.mp hheader⟩
  next => exact absurd h nofun

end

/-! ## The handler -/

/-- A stored state is decoded. -/
theorem State.Stored.decode_encode (h : s.Stored) : State.decode s.encode = .ok s :=
  State.decode_ok_iff.mpr ⟨rfl, h.valid, h.fuel_eq⟩

/-- The state that is stored decodes to it. -/
theorem State.Stored.decode_eq (h : s.Stored) (hstate : x.state = s.encode) :
    State.decode x.state = .ok s := by
  rw [hstate]
  exact h.decode_encode

/-- The handler on a callback message. -/
theorem process_callback (h : s.Stored) (hstate : x.state = s.encode)
    (hcallback : x.message.isCallback) : process x = callback x s := by
  rw [process, h.decode_eq hstate, ok_bind, if_pos hcallback]

/-- The handler on a message from outside. -/
theorem process_asks (h : s.Stored) (hstate : x.state = s.encode) {method : U64}
    (ask : Asks x method actor) :
    process x = (if method = Ids.topup then topup x s
      else if method = Ids.deposit then deposit x s
      else zeroValue x >>= fun _ =>
        if method = Ids.status then status x s
        else if method = Ids.claim then claim x actor s
        else if method = Ids.propose then propose x actor s
        else if method = Ids.vote then vote x actor s
        else if method = Ids.execute then execute x s
        else .error eArgs) := by
  rw [process, h.decode_eq hstate, ok_bind, if_neg ask.not_callback, ask.caller, ask.method_eq]

/-- The messages that the handler looks at. -/
theorem asks_or_callback (h : s.Stored) (hstate : x.state = s.encode)
    (hok : process x = .ok out) :
    x.message.isCallback ∨ ∃ actor, Asks x x.message.methodId actor := by
  by_cases hcallback : x.message.isCallback
  · exact .inl hcallback
  · rw [process, h.decode_eq hstate, ok_bind, if_neg hcallback] at hok
    cases hcaller : x.caller with
    | «internal» source =>
        rw [hcaller] at hok
        exact absurd hok nofun
    | external actor => exact .inr ⟨actor, hcallback, hcaller, rfl⟩

omit [Target] in
/-- A method behind the test for an empty currency list. -/
theorem free_of_zeroValue {next : HubResult MessageOutput}
    (hok : (zeroValue x >>= fun _ => next) = .ok out) :
    x.message.extra.isEmpty ∧ next = .ok out := by
  obtain ⟨_, hfree, hok⟩ := bind_ok_iff.mp hok
  exact ⟨not_not.mp (failIf_ok_iff.mp hfree), hok⟩

/-- A step with nothing sent, from the report of its method. -/
theorem step_of_finish (hstep : Step x s t none)
    (hfinish : finish t name index amount = .ok out) :
    ∃ t o e, Step x s t o ∧ out = answer t.encode e o := by
  obtain ⟨-, e, rfl⟩ := finish_inv hfinish
  exact ⟨t, none, e, hstep, rfl⟩

/-- **What the handler accepts** are steps. -/
theorem process_ok (h : s.Stored) (hstate : x.state = s.encode) (hok : process x = .ok out) :
    ∃ t o e, Step x s t o ∧ out = answer t.encode e o := by
  have hv := h.valid
  rcases asks_or_callback h hstate hok with hcallback | ⟨actor, ask⟩
  · rw [process_callback h hstate hcallback] at hok
    obtain ⟨source, message, header, ret⟩ := returns_of_callback hcallback hok
    obtain ⟨i, ok, ⟨arrived, hfinish⟩ | ⟨returned, hfinish⟩⟩ := (callback_ok_iff hv ret).mp hok
    · exact step_of_finish (.receipt ret ok arrived) hfinish
    · exact step_of_finish (.bounce ret ok returned) hfinish
  · rw [process_asks h hstate ask] at hok
    split_ifs at hok with htopup hdeposit hstatus hclaim hpropose hvote hexecute
    · obtain ⟨ok, hfinish⟩ := topup_ok_iff.mp hok
      exact step_of_finish (.topup (htopup ▸ ask) ok) hfinish
    · obtain ⟨next, ok, hfinish⟩ := (deposit_ok_iff hv).mp hok
      exact step_of_finish (.deposit (hdeposit ▸ ask) ok) hfinish
    · obtain ⟨hfree, hok⟩ := free_of_zeroValue hok
      obtain ⟨hbody, hfinish⟩ := status_ok_iff.mp hok
      exact step_of_finish (.status (hstatus ▸ ask) hfree hbody) hfinish
    · obtain ⟨hfree, hok⟩ := free_of_zeroValue hok
      obtain ⟨i, nonce, ok, out', hfinish, rfl⟩ := (claim_ok_iff hv).mp hok
      obtain ⟨-, e, rfl⟩ := finish_inv hfinish
      exact ⟨_, _, e, .claim (hclaim ▸ ask) hfree ok, rfl⟩
    · obtain ⟨hfree, hok⟩ := free_of_zeroValue hok
      obtain ⟨signer, p, ok, hfinish⟩ := (propose_ok_iff h).mp hok
      exact step_of_finish (.propose (hpropose ▸ ask) hfree ok) hfinish
    · obtain ⟨hfree, hok⟩ := free_of_zeroValue hok
      obtain ⟨signer, ok, hfinish⟩ := (vote_ok_iff h).mp hok
      exact step_of_finish (.vote (hvote ▸ ask) hfree ok) hfinish
    · obtain ⟨hfree, hok⟩ := free_of_zeroValue hok
      obtain ⟨ok, hfinish⟩ := (execute_ok_iff h).mp hok
      obtain ⟨-, e, rfl⟩ := finish_inv hfinish
      exact ⟨_, none, e, .execute (hexecute ▸ ask) hfree ok, rfl⟩
    · exact absurd (free_of_zeroValue hok).2 nofun

/-- **Every step** is accepted by the handler. -/
theorem process_of_step (h : s.Stored) (hstate : x.state = s.encode) (hstep : Step x s t o) :
    ∃ e, process x = .ok (answer t.encode e o) := by
  have hv := h.valid
  have ht := (hstep.stored h).valid
  have hzero (hfree : x.message.extra.isEmpty) : zeroValue x = .ok () :=
    failIf_ok_iff.mpr (not_not.mpr hfree)
  cases hstep with
  | topup ask ok =>
      obtain ⟨e, he⟩ := ht.exists_finish "hub.fees_added" 255 0 ⟨_, rfl⟩
      refine ⟨e, ?_⟩
      rw [process_asks h hstate ask, if_pos rfl]
      exact topup_ok_iff.mpr ⟨ok, he⟩
  | deposit ask ok =>
      obtain ⟨e, he⟩ := ht.exists_finish "hub.deposited" 255
        (principal x.message.extra) ⟨_, rfl⟩
      refine ⟨e, ?_⟩
      rw [process_asks h hstate ask, if_neg (by decide), if_pos rfl]
      exact (deposit_ok_iff hv).mpr ⟨_, ok, he⟩
  | status ask hfree hbody =>
      obtain ⟨e, he⟩ := ht.exists_finish "hub.status" 255 0 ⟨_, rfl⟩
      refine ⟨e, ?_⟩
      rw [process_asks h hstate ask, if_neg (by decide), if_neg (by decide), hzero hfree, ok_bind,
        if_pos rfl]
      exact status_ok_iff.mpr ⟨hbody, he⟩
  | @claim _ i _ ask hfree ok =>
      obtain ⟨e, he⟩ := ht.exists_finish "hub.claim_pending" (BitVec.ofNat 8 i.val)
        (s.members i).claimable ⟨_, rfl⟩
      refine ⟨e, ?_⟩
      rw [process_asks h hstate ask, if_neg (by decide), if_neg (by decide), hzero hfree, ok_bind,
        if_neg (by decide), if_pos rfl]
      exact (claim_ok_iff hv).mpr ⟨_, _, ok, _, he, rfl⟩
  | @propose _ _ p ask hfree ok =>
      obtain ⟨e, he⟩ := ht.exists_finish "hub.proposed" 255 p.value ⟨_, rfl⟩
      refine ⟨e, ?_⟩
      rw [process_asks h hstate ask, if_neg (by decide), if_neg (by decide), hzero hfree, ok_bind,
        if_neg (by decide), if_neg (by decide), if_pos rfl]
      exact (propose_ok_iff h).mpr ⟨_, _, ok, he⟩
  | vote ask hfree ok =>
      obtain ⟨e, he⟩ := ht.exists_finish "hub.voted" 255 s.proposal.value ⟨_, rfl⟩
      refine ⟨e, ?_⟩
      rw [process_asks h hstate ask, if_neg (by decide), if_neg (by decide), hzero hfree, ok_bind,
        if_neg (by decide), if_neg (by decide), if_neg (by decide), if_pos rfl]
      exact (vote_ok_iff h).mpr ⟨_, ok, he⟩
  | execute ask hfree ok =>
      obtain ⟨e, he⟩ :=
        (hv.executing ok.stored).exists_finish "hub.executed" 255 s.proposal.value ⟨_, rfl⟩
      refine ⟨e, ?_⟩
      rw [process_asks h hstate ask, if_neg (by decide), if_neg (by decide), hzero hfree, ok_bind,
        if_neg (by decide), if_neg (by decide), if_neg (by decide), if_neg (by decide), if_pos rfl]
      exact (execute_ok_iff h).mpr ⟨ok, he⟩
  | @receipt _ _ _ i ret ok arrived =>
      obtain ⟨e, he⟩ := ht.exists_finish "hub.claim_settled" (BitVec.ofNat 8 i.val)
        (s.members i).pending ⟨_, rfl⟩
      refine ⟨e, ?_⟩
      rw [process_callback h hstate ret.is_callback]
      exact (callback_ok_iff hv ret).mpr ⟨_, ok, .inl ⟨arrived, he⟩⟩
  | @bounce _ _ _ i ret ok returned =>
      obtain ⟨e, he⟩ := ht.exists_finish "hub.claim_failed" (BitVec.ofNat 8 i.val)
        (s.members i).pending ⟨_, rfl⟩
      refine ⟨e, ?_⟩
      rw [process_callback h hstate ret.is_callback]
      exact (callback_ok_iff hv ret).mpr ⟨_, ok, .inr ⟨returned, he⟩⟩

end

end AvmSdk.Hub
