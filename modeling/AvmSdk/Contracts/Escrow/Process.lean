import AvmSdk.Contracts.Escrow.Step

/-!
# The escrow handler and its steps

The handler of an escrow succeeds on a valid state exactly when a step is possible.

* `topup_ok_iff` to `callback_ok_iff`: one for each method, from its checks to the fields of `Step`.
* `State.Valid.owed_eq`: the subtraction of `dispatch` never underflows.
* `process_ok`: a successful call is a step, and stores the state after it.
* `process_of_step`: every step succeeds. No check of the result stops it.
-/

namespace AvmSdk.Escrow

open Wire Sdk Contracts

section

variable [Target] {x : MessageInput} {s t : State} {o : Option Transfer} {out : MessageOutput}
  {actor : Bytes32} {name : String} {idx : U8} {amount : U128} {i : Fin maxMilestones}

/-! ## Reports -/

omit [Target] in
/-- A finished call stores a valid state and reports one event. -/
theorem finish_inv (hc : s.config.Valid) (h : finish s name idx amount = .ok out) :
    s.Valid ∧ ∃ e, out = announced s.encode e := by
  simp only [finish, bind_ok_iff, pure_ok_iff] at h
  obtain ⟨_, hvalid, b, -, id, -, rfl⟩ := h
  exact ⟨(State.validate_ok_iff hc).mp hvalid, _, rfl⟩

omit [Target] in
/-- **Finishing** never fails on a valid state. -/
theorem State.Valid.exists_finish (h : s.Valid) (name : String) (idx : U8) (amount : U128)
    (hname : ∃ id, eventClass name = .ok id) :
    ∃ e, finish s name idx amount = .ok (announced s.encode e) := by
  obtain ⟨id, hname⟩ := hname
  have hvalidate : s.validate = .ok () := (State.validate_ok_iff h.config).mpr h
  have hfields : ∃ b, encodeEventFields [⟨"amount", .u128 amount⟩, ⟨"attempt", .u64 s.attempts⟩,
      ⟨"funded", .u128 s.funded⟩, ⟨"index", .u64 (idx.zeroExtend 64)⟩, ⟨"paid", .u128 s.paid⟩,
      ⟨"pending", .u128 s.pending.amount⟩, ⟨"refunded", .u128 s.refunded⟩] = .ok b := by
    refine ⟨_, encodeEventFields_ok_iff.mpr ⟨?_, ?_, ?_, rfl⟩⟩
    · simp only [List.length_cons, List.length_nil]
      decide
    · simp only [List.forall_mem_cons, EventField.Fits, EventField.packed, EventValue.encoded,
        length_toLe]
      decide
    · simp only [List.map_cons, List.map_nil, EventField.packed]
      decide
  obtain ⟨b, hb⟩ := hfields
  refine ⟨⟨0, .external, id, name, [s.config.owner.val], b⟩, ?_⟩
  simp only [finish, hvalidate, hb, hname, ok_bind]
  rfl

/-! ## Methods -/

omit [Target] in
/-- When the status is reported, -/
theorem status_ok_iff : status x s = .ok out ↔
    x.message.body = [] ∧ x.message.extra.isEmpty ∧ finish s "escrow.status" 255 0 = .ok out := by
  simp only [status, bind_ok_iff, noBody_ok_iff, zeroValue, failIf_ok_iff, exists_const, not_not]

/-- when fees are taken, -/
theorem topup_ok_iff :
    topup x s = .ok out ↔ TopupOk x ∧ finish s "escrow.fees_added" 255 0 = .ok out := by
  simp only [topup, bind_ok_iff, noBody_ok_iff, failIf_ok_iff, exists_const]
  constructor
  · rintro ⟨hbody, hguard, hfinish⟩
    push Not at hguard
    exact ⟨⟨hbody, hguard.1, hguard.2⟩, hfinish⟩
  · rintro ⟨ok, hfinish⟩
    refine ⟨ok.body, ?_, hfinish⟩
    push Not
    exact ⟨ok.some, ok.fees⟩

/-- and when the escrow is funded. -/
theorem fund_ok_iff (hidle : s.pending.kind = 0) : fund x actor s = .ok out ↔
    FundOk x actor s ∧ finish s.deposited "escrow.funded" 255 s.config.total = .ok out := by
  simp only [fund, bind_ok_iff, noBody_ok_iff, failIf_ok_iff, exists_const, not_or, not_not,
    BitVec.not_le, BitVec.not_lt]
  constructor
  · rintro ⟨hbody, howner, hearly, hfresh, ⟨hvalue, hsingle⟩, hbalance, hfinish⟩
    rw [hvalue] at hfinish
    exact ⟨⟨hidle, hbody, howner.symm, hearly, hfresh, hvalue, hsingle, hbalance⟩, hfinish⟩
  · rintro ⟨ok, hfinish⟩
    rw [ok.value]
    exact ⟨ok.body, ok.owner.symm, ok.early, ok.fresh, ⟨rfl, ok.single⟩, ok.balance, hfinish⟩

omit [Target] in
/-- A byte names a milestone. -/
theorem index_ok_iff (hc : s.config.Valid) {b : U8} :
    index b s = .ok i ↔ b = BitVec.ofNat 8 i.val ∧ s.config.Active i := by
  have hle : s.config.count.toNat ≤ 8 := hc.count_le
  simp only [index, bind_ok_iff, failIf_ok_iff, exists_const, pure_ok_iff, not_not, BitVec.lt_def]
  constructor
  · rintro ⟨hlt, rfl⟩
    have hval : (milestone b).val = b.toNat := Nat.mod_eq_of_lt (show b.toNat < 8 by omega)
    unfold Config.Active
    rw [hval]
    exact ⟨by simp, hlt⟩
  · rintro ⟨rfl, hi⟩
    rw [toNat_index]
    exact ⟨hi, milestone_index i⟩

/-- A body with the name of a milestone and a hash. -/
theorem body_hash_iff {body : Bytes} (hlen : body.length = 33) {hash : Bytes32} {b : U8} :
    body.getD 0 0 = b ∧ arrayAt errArgs 32 body 1 = .ok hash ↔ body = b :: hash.val := by
  rw [arrayAt_ok_iff (by omega) (by omega), List.extract_eq_take_drop]
  obtain ⟨a, rest, rfl⟩ := List.exists_cons_of_length_pos (show 0 < body.length by omega)
  rw [List.length_cons] at hlen
  rw [List.getD_cons_zero, List.drop_one, List.tail_cons, List.take_of_length_le (by omega),
    List.cons.injEq, eq_comm (a := hash.val)]

/-- When a submission is taken, -/
theorem submit_ok_iff (hc : s.config.Valid) (hready : Ready x s) : submit x actor s = .ok out ↔
    ∃ i hash, SubmitOk x actor s i hash ∧
      finish (s.submitted i hash) "escrow.submitted" (BitVec.ofNat 8 i.val) 0 = .ok out := by
  simp only [submit, bind_ok_iff, failIf_ok_iff, exists_const, not_not, BitVec.not_le,
    index_ok_iff hc]
  constructor
  · rintro ⟨hworker, hearly, hlen, i, ⟨hindex, hi⟩, hash, hread, hhash, hphase, hfinish⟩
    have hbody := (body_hash_iff hlen).mp ⟨hindex, hread⟩
    exact ⟨i, hash, ⟨hready, hworker.symm, hearly, hbody, hi, hhash, hphase⟩, hfinish⟩
  · rintro ⟨i, hash, ok, hfinish⟩
    have hlen : x.message.body.length = 33 := by
      rw [ok.body, List.length_cons, length_bytesN]
    obtain ⟨hindex, hread⟩ := (body_hash_iff hlen).mpr ok.body
    exact ⟨ok.worker.symm, ok.early, hlen, i, ⟨hindex, ok.active⟩, hash, hread, ok.hash_ne_zero,
      ok.phase, hfinish⟩

omit [Target] in
/-- and when an approval is taken. -/
theorem approve_ok_iff (hc : s.config.Valid) (hready : Ready x s) : approve x actor s = .ok out ↔
    ∃ i, ApproveOk x actor s i ∧
      finish (s.approved i) "escrow.approved" (BitVec.ofNat 8 i.val) 0 = .ok out := by
  simp only [approve, bind_ok_iff, failIf_ok_iff, exists_const, not_not, BitVec.not_le,
    index_ok_iff hc]
  constructor
  · rintro ⟨howner, hearly, hlen, i, ⟨hindex, hi⟩, hphase, hhash, hfinish⟩
    have hbody : x.message.body = BitVec.ofNat 8 i.val :: (s.deliveryHashes i).val := by
      obtain ⟨a, rest, hcons⟩ :=
        List.exists_cons_of_length_pos (show 0 < x.message.body.length by omega)
      rw [hcons, List.getD_cons_zero] at hindex
      rw [hcons, List.drop_one, List.tail_cons] at hhash
      rw [hcons, hindex, hhash]
    exact ⟨i, ⟨hready, howner.symm, hearly, hbody, hi, hphase⟩, hfinish⟩
  · rintro ⟨i, ok, hfinish⟩
    rw [ok.body, List.length_cons, length_bytesN, List.getD_cons_zero, List.drop_one, List.tail_cons]
    exact ⟨ok.owner.symm, ok.early, rfl, i, ⟨rfl, ok.active⟩, ok.phase, rfl, hfinish⟩

/-! ## Transfers -/

omit [Target] in
/-- **What is owed** is subtracted without an underflow. -/
theorem State.Valid.owed_eq (h : s.Valid) :
    s.paid.toNat + s.refunded.toNat ≤ s.funded.toNat ∧
      (s.funded - s.paid - s.refunded).toNat =
        s.funded.toNat - s.paid.toNat - s.refunded.toNat := by
  have hcovered := h.covered
  have hfirst : (s.funded - s.paid).toNat = s.funded.toNat - s.paid.toNat :=
    BitVec.toNat_sub_of_le (BitVec.le_def.mpr (by omega))
  refine ⟨hcovered, ?_⟩
  rw [BitVec.toNat_sub_of_le (BitVec.le_def.mpr (by omega)), hfirst]

/-- When a transfer goes out, -/
theorem dispatch_ok_iff (h : s.Valid) {kind : U8} : dispatch x s kind idx amount = .ok out ↔
    SendOk x s ∧ ∃ out', finish (s.dispatched kind idx amount) "escrow.transfer_pending" idx
      amount = .ok out' ∧ (s.dispatched kind idx amount).transfer.emitted out' = out := by
  simp only [dispatch, bind_ok_iff, failIf_ok_iff, exists_const, not_le, BitVec.not_lt,
    BitVec.le_def, h.owed_eq.2, not_not, pure_ok_iff]
  constructor
  · rintro ⟨hroom, hbalance, hfuel, out', hfinish, hout⟩
    exact ⟨⟨hroom, hbalance, hfuel⟩, out', hfinish, hout⟩
  · rintro ⟨ok, out', hfinish, hout⟩
    exact ⟨ok.room, ok.balance, ok.fuel, out', hfinish, hout⟩

/-- when it is the payment of a milestone, -/
theorem pay_ok_iff (h : s.Valid) (hready : Ready x s) : pay x actor s = .ok out ↔
    ∃ i, PayOk x actor s i ∧
      dispatch x s 1 (BitVec.ofNat 8 i.val) (s.config.amounts i) = .ok out := by
  simp only [pay, bind_ok_iff, failIf_ok_iff, exists_const, not_not, index_ok_iff h.config]
  constructor
  · rintro ⟨hsigner, hlen, i, ⟨hindex, hi⟩, hphase, hok⟩
    obtain ⟨b, hb⟩ := List.length_eq_one_iff.mp hlen
    rw [hb, List.getD_cons_zero] at hindex
    have hsigner : s.config.owner = actor ∨ s.config.worker = actor := by
      rcases Decidable.not_and_iff_or_not.mp hsigner with hno | hno
      · exact .inl (not_not.mp hno).symm
      · exact .inr (not_not.mp hno).symm
    have hsend := ((dispatch_ok_iff h).mp hok).1
    exact ⟨i, ⟨hready, hsend, hsigner, by rw [hb, hindex], hi, hphase⟩, hok⟩
  · rintro ⟨i, ok, hok⟩
    rw [ok.body]
    refine ⟨fun hno => ?_, rfl, i, ⟨rfl, ok.active⟩, ok.phase, hok⟩
    rcases ok.signer with hactor | hactor
    · exact hno.1 hactor.symm
    · exact hno.2 hactor.symm

/-- and when it is the refund. -/
theorem refund_ok_iff (h : s.Valid) (hready : Ready x s) : refund x actor s = .ok out ↔
    ∃ amount, RefundOk x actor s amount ∧ dispatch x s 2 255 amount = .ok out := by
  simp only [refund, bind_ok_iff, failIf_ok_iff, exists_const, not_not, noBody_ok_iff,
    BitVec.not_lt, State.refundable_ok_iff h.config.idle]
  constructor
  · rintro ⟨howner, hbody, hlate, amount, hamount, hsome, hok⟩
    have hsend := ((dispatch_ok_iff h).mp hok).1
    exact ⟨amount, ⟨hready, hsend, howner.symm, hbody, hlate, hamount, hsome⟩, hok⟩
  · rintro ⟨amount, ok, hok⟩
    exact ⟨ok.owner.symm, ok.body, ok.late, amount, ok.amount_eq, ok.some, hok⟩

/-! ## Callbacks -/

section

variable {source : AccountAddress} {message : InternalMessage} {h : CallbackHeader}

/-- When a receipt settles the transfer, -/
theorem settle_ok_iff (hs : s.Valid) (hpending : s.pending.kind ≠ 0) (hstatus : h.statusCode = 0) :
    settle message s = .ok t ↔ ReceiptOk s message h ∧
      (if s.pending.kind = 1 then s.paidOut (milestone s.pending.index) s.pending.amount
        else s.refundedAll s.pending.amount) = t := by
  have hadd : (if s.pending.kind = 1 then do
        let paid ← okOr (wordCheckedAdd s.paid s.pending.amount) errState
        pure { s with
          phases := Function.update s.phases (milestone s.pending.index) phasePaid, paid := paid }
      else do
        let refunded ← okOr (wordCheckedAdd s.refunded s.pending.amount) errState
        pure { s with phases := s.refundedPhases, refunded := refunded } : ResultCode State) =
      .ok (if s.pending.kind = 1 then s.paidOut (milestone s.pending.index) s.pending.amount
        else s.refundedAll s.pending.amount) := by
    by_cases hkind : s.pending.kind = 1
    · obtain ⟨-, hphase, hamount⟩ := hs.pending.payment hkind
      have hlt := hs.paid_add_lt hphase
      rw [← hamount] at hlt
      rw [if_pos hkind, if_pos hkind, wordCheckedAdd_of_lt hlt]
      rfl
    · have htwo := (hs.pending.kind_cases.resolve_left hpending).resolve_left hkind
      have hlt := hs.refunded_add_lt (hs.pending.refund htwo).2.2
      rw [if_neg hkind, if_neg hkind, wordCheckedAdd_of_lt hlt]
      rfl
  unfold settle
  dsimp only
  rw [bind_ok_iff]
  simp only [failIf_ok_iff, exists_const]
  rw [hadd, Except.ok.injEq]
  push Not
  constructor
  · rintro ⟨⟨hfees, hbody⟩, heq⟩
    exact ⟨⟨hstatus, hfees, hbody⟩, heq⟩
  · rintro ⟨ok, heq⟩
    exact ⟨⟨ok.fees, ok.body⟩, heq⟩

/-- and when a bounce releases it. -/
theorem release_ok_iff (hstatus : h.statusCode ≠ 0) :
    release message s = .ok t ↔ BounceOk s message h ∧ s = t := by
  simp only [release, bind_ok_iff, failIf_ok_iff, exists_const, pure_ok_iff]
  push Not
  constructor
  · rintro ⟨⟨hvalue, hbody⟩, heq⟩
    exact ⟨⟨hstatus, hvalue, hbody⟩, heq⟩
  · rintro ⟨ok, heq⟩
    exact ⟨⟨ok.value, ok.body⟩, heq⟩

/-- The report of a callback. -/
def callbackReport (s t : State) (h : CallbackHeader) : ResultCode MessageOutput :=
  finish t (if h.statusCode = 0 then "escrow.transfer_settled" else "escrow.transfer_failed")
    s.pending.index s.pending.amount

omit [Target] in
/-- Settling and closing do not depend on their order. -/
theorem settled_eq_closed (s : State) (hash : Bytes32) : s.settled hash =
    (if s.pending.kind = 1 then s.paidOut (milestone s.pending.index) s.pending.amount
      else s.refundedAll s.pending.amount).closed hash := by
  unfold State.settled
  split_ifs <;> rfl

/-- When a callback is accepted: as a receipt, or as a bounce. -/
theorem callback_ok_iff (hs : s.Valid) (ret : Returns x source message h) :
    callback x s = .ok out ↔ CallbackOk x s source message h ∧
      (ReceiptOk s message h ∧ callbackReport s (s.settled h.causeMsgHash) h = .ok out ∨
        BounceOk s message h ∧ callbackReport s (s.closed h.causeMsgHash) h = .ok out) := by
  have hguard : ¬ (s.pending.kind = 0 ∨ message.methodId ≠ Ids.callback ∨
      source ≠ s.config.recipient s.pending.kind ∨ h.causeAddress ≠ x.destination ∨
      h.causeMsgHash = zeros 32 ∨ h.causeMsgHash ∈ s.receipts ∨
      (CanonicalMessage.internal message).hasCallbackRequest ∨
      ∃ c ∈ message.extra.items, c.currencyId ≠ shellCurrencyId ∧
        c.currencyId ≠ principalCurrencyId) ↔ CallbackOk x s source message h := by
    simp only [not_or, not_not, not_exists, not_and]
    constructor
    · rintro ⟨hpending, hmethod, hsource, hcause, hhash, hfresh, hrequest, hcurrencies⟩
      exact ⟨hpending, hmethod, hsource.symm, hcause, hhash, hfresh, hrequest,
        fun c hc => Decidable.or_iff_not_imp_left.mpr (hcurrencies c hc)⟩
    · intro ok
      exact ⟨ok.pending, ok.method_eq, ok.source_eq.symm, ok.cause, ok.hash_ne_zero, ok.hash_fresh,
        ok.no_request, fun c hc => Decidable.or_iff_not_imp_left.mp (ok.currencies c hc)⟩
  simp only [callback, ret.caller, ret.message_eq, ret.header, okOr_some, ok_bind, bind_ok_iff,
    failIf_ok_iff, exists_const, hguard]
  refine and_congr_right fun ok => ?_
  unfold outcome callbackReport
  by_cases hstatus : h.statusCode = 0
  · have hno : ¬ BounceOk s message h := fun returned => returned.failure hstatus
    simp only [if_pos hstatus, settle_ok_iff hs ok.pending hstatus, hno, false_and, or_false,
      settled_eq_closed]
    constructor
    · rintro ⟨_, ⟨arrived, rfl⟩, hfinish⟩
      exact ⟨arrived, hfinish⟩
    · rintro ⟨arrived, hfinish⟩
      exact ⟨_, ⟨arrived, rfl⟩, hfinish⟩
  · have hno : ¬ ReceiptOk s message h := fun arrived => hstatus arrived.success
    simp only [if_neg hstatus, release_ok_iff hstatus, hno, false_and, false_or]
    constructor
    · rintro ⟨_, ⟨returned, rfl⟩, hfinish⟩
      exact ⟨returned, hfinish⟩
    · rintro ⟨returned, hfinish⟩
      exact ⟨_, ⟨returned, rfl⟩, hfinish⟩

/-- A callback that gets through comes from an account and has a header. -/
theorem returns_of_callback (hcallback : x.message.isCallback) (h : callback x s = .ok out) :
    ∃ source message h, Returns x source message h := by
  unfold callback at h
  split at h
  next source message hcaller hmessage =>
    simp only [bind_ok_iff] at h
    obtain ⟨header, hheader, -⟩ := h
    exact ⟨source, message, header, hcallback, hcaller, hmessage, okOr_ok_iff.mp hheader⟩
  next => exact absurd h nofun

end

/-! ## The handler -/

/-- A valid state is decoded. -/
theorem State.Valid.decode_encode (h : s.Valid) : State.decode s.encode = .ok s :=
  State.decode_ok_iff.mpr ⟨rfl, h⟩

/-- The state of a valid escrow decodes to it. -/
theorem State.Valid.decode_eq (h : s.Valid) (hstate : x.state = s.encode) :
    State.decode x.state = .ok s := by
  rw [hstate]
  exact h.decode_encode

/-- The handler on a callback message. -/
theorem process_callback (h : s.Valid) (hstate : x.state = s.encode)
    (hcallback : x.message.isCallback) : process x = callback x s := by
  rw [process, h.decode_eq hstate, ok_bind]
  exact if_pos hcallback

/-- The handler on a message from outside. -/
theorem process_asks (h : s.Valid) (hstate : x.state = s.encode)
    (ask : Asks x x.message.methodId actor) :
    process x = (if x.message.methodId = Ids.status then status x s
      else if x.message.methodId = Ids.topup then topup x s
      else failIf (s.pending.kind ≠ 0) errPending >>= fun _ =>
        if x.message.methodId = Ids.fund then fund x actor s
        else zeroValue x >>= fun _ => failIf (s.funded = 0) errPhase >>= fun _ =>
          manage x actor s) := by
  rw [process, h.decode_eq hstate, ok_bind, if_neg ask.not_callback, ask.caller]

/-- The messages that the handler looks at. -/
theorem asks_or_callback (h : s.Valid) (hstate : x.state = s.encode) (hok : process x = .ok out) :
    x.message.isCallback ∨ ∃ actor, Asks x x.message.methodId actor := by
  by_cases hcallback : x.message.isCallback
  · exact .inl hcallback
  · rw [process, h.decode_eq hstate, ok_bind, if_neg hcallback] at hok
    cases hcaller : x.caller with
    | «internal» source =>
        rw [hcaller] at hok
        exact absurd hok nofun
    | external actor => exact .inr ⟨actor, hcallback, hcaller, rfl⟩

omit [Target] in
/-- The tests before the methods of a funded escrow. -/
theorem ready_iff {next : ResultCode MessageOutput} (hidle : s.pending.kind = 0) :
    (zeroValue x >>= fun _ => failIf (s.funded = 0) errPhase >>= fun _ => next) = .ok out ↔
      Ready x s ∧ next = .ok out := by
  simp only [zeroValue, bind_ok_iff, failIf_ok_iff, exists_const, not_not]
  constructor
  · rintro ⟨hfree, hfunded, hok⟩
    exact ⟨⟨hidle, hfree, hfunded⟩, hok⟩
  · rintro ⟨ready, hok⟩
    exact ⟨ready.free, ready.funded, hok⟩

/-- A call with nothing sent, from the report of its method. -/
theorem step_of_finish (h : s.Valid) (hstep : Step x s t none)
    (hfinish : finish t name idx amount = .ok out) :
    ∃ t o e, Step x s t o ∧ out = answer t.encode e o := by
  obtain ⟨-, e, rfl⟩ := finish_inv (hstep.valid h).config hfinish
  exact ⟨t, none, e, hstep, rfl⟩

/-- A transfer, from its report. -/
theorem step_of_dispatch (h : s.Valid) {kind : U8}
    (hstep : Step x s (s.dispatched kind idx amount) (some (s.dispatched kind idx amount).transfer))
    (hok : dispatch x s kind idx amount = .ok out) :
    ∃ t o e, Step x s t o ∧ out = answer t.encode e o := by
  obtain ⟨-, out', hfinish, rfl⟩ := (dispatch_ok_iff h).mp hok
  obtain ⟨-, e, rfl⟩ := finish_inv (hstep.valid h).config hfinish
  exact ⟨_, _, e, hstep, rfl⟩

/-- What the methods of a funded escrow accept. -/
theorem step_of_manage (h : s.Valid) (ask : Asks x x.message.methodId actor)
    (hready : Ready x s) (hok : manage x actor s = .ok out) :
    ∃ t o e, Step x s t o ∧ out = answer t.encode e o := by
  unfold manage at hok
  dsimp only at hok
  split_ifs at hok with hsubmit happrove hpay hrefund
  · obtain ⟨i, hash, ok, hfinish⟩ := (submit_ok_iff h.config hready).mp hok
    exact step_of_finish h (.submit (hsubmit ▸ ask) ok) hfinish
  · obtain ⟨i, ok, hfinish⟩ := (approve_ok_iff h.config hready).mp hok
    exact step_of_finish h (.approve (happrove ▸ ask) ok) hfinish
  · obtain ⟨i, ok, hok⟩ := (pay_ok_iff h hready).mp hok
    exact step_of_dispatch h (.pay (hpay ▸ ask) ok) hok
  · obtain ⟨amount, ok, hok⟩ := (refund_ok_iff h hready).mp hok
    exact step_of_dispatch h (.refund (hrefund ▸ ask) ok) hok

/-- **What the handler accepts** are steps. -/
theorem process_ok (h : s.Valid) (hstate : x.state = s.encode) (hok : process x = .ok out) :
    ∃ t o e, Step x s t o ∧ out = answer t.encode e o := by
  rcases asks_or_callback h hstate hok with hcallback | ⟨actor, ask⟩
  · rw [process_callback h hstate hcallback] at hok
    obtain ⟨source, message, header, ret⟩ := returns_of_callback hcallback hok
    obtain ⟨ok, ⟨arrived, hreport⟩ | ⟨returned, hreport⟩⟩ := (callback_ok_iff h ret).mp hok
    · exact step_of_finish h (.receipt ret ok arrived) hreport
    · exact step_of_finish h (.bounce ret ok returned) hreport
  · rw [process_asks h hstate ask] at hok
    split_ifs at hok with hstatus htopup hfund
    · obtain ⟨hbody, hfree, hfinish⟩ := status_ok_iff.mp hok
      exact step_of_finish h (.status (hstatus ▸ ask) hbody hfree) hfinish
    · obtain ⟨ok, hfinish⟩ := topup_ok_iff.mp hok
      exact step_of_finish h (.topup (htopup ▸ ask) ok) hfinish
    · obtain ⟨_, hidle, hok⟩ := bind_ok_iff.mp hok
      obtain ⟨ok, hfinish⟩ := (fund_ok_iff (not_not.mp (failIf_ok_iff.mp hidle))).mp hok
      exact step_of_finish h (.fund (hfund ▸ ask) ok) hfinish
    · obtain ⟨_, hidle, hok⟩ := bind_ok_iff.mp hok
      obtain ⟨hready, hok⟩ := (ready_iff (not_not.mp (failIf_ok_iff.mp hidle))).mp hok
      exact step_of_manage h ask hready hok

/-- The methods that a step does not ask for are passed by. -/
theorem process_ready (h : s.Valid) (hstate : x.state = s.encode) {method : U64}
    (ask : Asks x method actor) (hready : Ready x s)
    (hmethod : method ≠ Ids.status ∧ method ≠ Ids.topup ∧ method ≠ Ids.fund) :
    process x = manage x actor s := by
  have hidle : failIf (s.pending.kind ≠ 0) errPending = .ok () :=
    failIf_ok_iff.mpr (not_not.mpr hready.idle)
  have hfree : zeroValue x = .ok () := failIf_ok_iff.mpr (not_not.mpr hready.free)
  have hfunded : failIf (s.funded = 0) errPhase = .ok () := failIf_ok_iff.mpr hready.funded
  rw [process_asks h hstate ⟨ask.not_callback, ask.caller, rfl⟩, ask.method_eq, if_neg hmethod.1,
    if_neg hmethod.2.1, hidle, ok_bind, if_neg hmethod.2.2, hfree, ok_bind, hfunded, ok_bind]

/-- **Every step** is accepted by the handler. -/
theorem process_of_step (h : s.Valid) (hstate : x.state = s.encode) (hstep : Step x s t o) :
    ∃ e, process x = .ok (answer t.encode e o) := by
  have ht := hstep.valid h
  have hasks {method : U64} {actor : Bytes32} (ask : Asks x method actor) :
      Asks x x.message.methodId actor := ⟨ask.not_callback, ask.caller, rfl⟩
  cases hstep with
  | status ask hbody hfree =>
      obtain ⟨e, he⟩ := ht.exists_finish "escrow.status" 255 0 ⟨_, rfl⟩
      refine ⟨e, ?_⟩
      rw [process_asks h hstate (hasks ask), ask.method_eq, if_pos rfl]
      exact status_ok_iff.mpr ⟨hbody, hfree, he⟩
  | topup ask ok =>
      obtain ⟨e, he⟩ := ht.exists_finish "escrow.fees_added" 255 0 ⟨_, rfl⟩
      refine ⟨e, ?_⟩
      rw [process_asks h hstate (hasks ask), ask.method_eq, if_neg (by decide), if_pos rfl]
      exact topup_ok_iff.mpr ⟨ok, he⟩
  | fund ask ok =>
      obtain ⟨e, he⟩ := ht.exists_finish "escrow.funded" 255 s.config.total ⟨_, rfl⟩
      have hidle : failIf (s.pending.kind ≠ 0) errPending = .ok () :=
        failIf_ok_iff.mpr (not_not.mpr ok.idle)
      refine ⟨e, ?_⟩
      rw [process_asks h hstate (hasks ask), ask.method_eq, if_neg (by decide), if_neg (by decide),
        hidle, ok_bind, if_pos rfl]
      exact (fund_ok_iff ok.idle).mpr ⟨ok, he⟩
  | @submit _ i hash ask ok =>
      obtain ⟨e, he⟩ := ht.exists_finish "escrow.submitted" (BitVec.ofNat 8 i.val) 0 ⟨_, rfl⟩
      refine ⟨e, ?_⟩
      rw [process_ready h hstate ask ok.toReady (by decide), manage, ask.method_eq]
      exact (if_pos rfl).trans ((submit_ok_iff h.config ok.toReady).mpr ⟨i, hash, ok, he⟩)
  | @approve _ i ask ok =>
      obtain ⟨e, he⟩ := ht.exists_finish "escrow.approved" (BitVec.ofNat 8 i.val) 0 ⟨_, rfl⟩
      refine ⟨e, ?_⟩
      rw [process_ready h hstate ask ok.toReady (by decide), manage, ask.method_eq,
        if_neg (by decide), if_pos rfl]
      exact (approve_ok_iff h.config ok.toReady).mpr ⟨i, ok, he⟩
  | @pay _ i ask ok =>
      obtain ⟨e, he⟩ := ht.exists_finish "escrow.transfer_pending" (BitVec.ofNat 8 i.val)
        (s.config.amounts i) ⟨_, rfl⟩
      refine ⟨e, ?_⟩
      rw [process_ready h hstate ask ok.toReady (by decide), manage, ask.method_eq,
        if_neg (by decide), if_neg (by decide), if_pos rfl]
      exact (pay_ok_iff h ok.toReady).mpr
        ⟨i, ok, (dispatch_ok_iff h).mpr ⟨ok.toSendOk, _, he, rfl⟩⟩
  | @refund _ amount ask ok =>
      obtain ⟨e, he⟩ := ht.exists_finish "escrow.transfer_pending" 255 amount ⟨_, rfl⟩
      refine ⟨e, ?_⟩
      rw [process_ready h hstate ask ok.toReady (by decide), manage, ask.method_eq,
        if_neg (by decide), if_neg (by decide), if_neg (by decide), if_pos rfl]
      exact (refund_ok_iff h ok.toReady).mpr
        ⟨amount, ok, (dispatch_ok_iff h).mpr ⟨ok.toSendOk, _, he, rfl⟩⟩
  | @receipt _ _ header ret ok arrived =>
      obtain ⟨e, he⟩ := ht.exists_finish "escrow.transfer_settled" s.pending.index s.pending.amount
        ⟨_, rfl⟩
      refine ⟨e, ?_⟩
      rw [process_callback h hstate ret.is_callback, callback_ok_iff h ret]
      refine ⟨ok, .inl ⟨arrived, ?_⟩⟩
      rw [callbackReport, if_pos arrived.success]
      exact he
  | @bounce _ _ header ret ok returned =>
      obtain ⟨e, he⟩ := ht.exists_finish "escrow.transfer_failed" s.pending.index s.pending.amount
        ⟨_, rfl⟩
      refine ⟨e, ?_⟩
      rw [process_callback h hstate ret.is_callback, callback_ok_iff h ret]
      refine ⟨ok, .inr ⟨returned, ?_⟩⟩
      rw [callbackReport, if_neg returned.failure]
      exact he

end

end AvmSdk.Escrow
