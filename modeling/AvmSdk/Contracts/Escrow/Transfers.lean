import AvmSdk.Contracts.Escrow.History
import AvmSdk.Trace.Pairing

/-!
# Transfers settle once

Over any calls, an escrow sends one transfer at a time, and every transfer is answered once.

* `Dispatches`, `Answers`: the calls that send a transfer, and the callbacks that answer it.
* `transfers_alternate`, `attempts_numbered`, `hashes_eq_receipts`: what a run says about them.
* `transfers_settle_once`.
-/

namespace AvmSdk.Escrow

open Wire Sdk Contracts Trace

/-- The method that sends a kind of transfer. -/
def sendMethod (kind : U8) : U64 := if kind = 1 then Ids.pay else Ids.refund

/-- The accepted calls that send a transfer. -/
def IsDispatch (c : Call) : Prop := c.AcceptedMethod Ids.pay ∨ c.AcceptedMethod Ids.refund

instance : DecidablePred IsDispatch := fun _ => inferInstanceAs (Decidable (_ ∨ _))

/-- The accepted calls that send a transfer or take its callback. -/
def IsTransferCall (c : Call) : Prop := IsDispatch c ∨ c.AcceptedCallback

instance : DecidablePred IsTransferCall := fun _ => inferInstanceAs (Decidable (_ ∨ _))

/-- The attempt in the body of a transfer. -/
def bodyAttempt (body : Bytes) : U64 := ofLe 64 (body.extract 8 16)

/-- The attempt of the transfer that a call sends. -/
def sentAttempt (c : Call) : U64 := bodyAttempt ((c.output.outboundIntents.map (·.body)).headD [])

/-- The cause hash of a callback message. -/
def causeHash (c : Call) : Bytes32 :=
  (c.input.message.callbackHeader.map (·.causeMsgHash)).getD (zeros 32)

/-- The attempt that a payment names. -/
@[simp] theorem bodyAttempt_paymentBody (p : Pending) : bodyAttempt (paymentBody p) = p.attempt := by
  have hfront : paymentBody p =
      [0x42, 0x45, 0x50, 0x31, p.kind, p.index, 0, 0] ++ (toLe p.attempt ++ toLe p.amount) := by
    simp [paymentBody]
  have hlen : (toLe p.attempt).length = 8 := length_toLe _
  have hextract : (paymentBody p).extract 8 16 = toLe p.attempt := by
    rw [hfront, List.extract_eq_take_drop]
    show (toLe p.attempt ++ toLe p.amount).take 8 = toLe p.attempt
    rw [List.take_left' hlen]
  rw [bodyAttempt, hextract, ofLe_toLe (by decide)]

section

variable [Target]

/-- The call sends one message, the transfer of what is pending, and asks for its callback. -/
structure Dispatches (config : Config) (p : Pending) (c : Call) : Prop where
  method : c.AcceptedMethod (sendMethod p.kind)
  kind_cases : p.kind = 1 ∨ p.kind = 2
  intents : c.output.outboundIntents = [(transferOf config p).intent]
  callbacks : c.output.callbackIntents = [⟨0, Ids.callback⟩]

/-- A failure changes nothing but the lock. -/
structure Untouched (s t : State) : Prop where
  phases : t.phases = s.phases
  deliveryHashes : t.deliveryHashes = s.deliveryHashes
  paid : t.paid = s.paid
  refunded : t.refunded = s.refunded

/-- The accepted callback answers a transfer. -/
structure Answers (config : Config) (p : Pending) (c : Call) : Prop where
  accepted : c.AcceptedCallback
  source : c.input.caller = .internal (config.recipient p.kind)
  /-- It reports a success or a failure. -/
  reports : c.AcceptedReceipt ∨ c.AcceptedBounce
  /-- A success echoes kind, index, attempt and amount. -/
  success : c.AcceptedReceipt →
    c.input.message.body = paymentBody p ∧ c.attached principalCurrencyId = 0
  /-- A failure brings the amount back. -/
  failure : c.AcceptedBounce → c.attached principalCurrencyId = p.amount.toNat ∧
    ∃ s t, State.decode c.before = .ok s ∧ State.decode c.after = .ok t ∧ Untouched s t

variable {s t : State} {o : Option Transfer} {c : Call} {start : MessageInput} {calls : List Call}

/-! ## Kinds of calls -/

omit [Target] in
/-- A method that sends is a dispatch, -/
theorem isDispatch_of_method {kind : U8} (h : c.AcceptedMethod (sendMethod kind)) :
    IsDispatch c := by
  unfold sendMethod at h
  split_ifs at h
  · exact .inl h
  · exact .inr h

omit [Target] in
/-- any other method is none, -/
theorem not_isDispatch_of_asks {method : U64} {actor : Bytes32} (ask : Asks c.input method actor)
    (h : method ≠ Ids.pay ∧ method ≠ Ids.refund) : ¬ IsDispatch c := by
  rintro (hpay | hrefund)
  · exact not_acceptedMethod_of_asks ask h.1 hpay
  · exact not_acceptedMethod_of_asks ask h.2 hrefund

omit [Target] in
/-- and neither is a callback. -/
theorem not_isDispatch_of_callback (h : c.AcceptedCallback) : ¬ IsDispatch c := by
  rintro (hpay | hrefund)
  · exact hpay.2.1 h.2
  · exact hrefund.2.1 h.2

/-- What an accepted call does to the transfer of a state. -/
inductive TransferMove (c : Call) (s t : State) : Prop
  /-- It is about something else. -/
  | other (call : ¬ IsTransferCall c) (pending_eq : t.pending = s.pending)
      (attempts_eq : t.attempts = s.attempts) (receipts_eq : t.receipts = s.receipts)
      (busy : s.pending.kind ≠ 0 → t = s)
  /-- It sends a transfer. -/
  | sent (idle : s.pending.kind = 0) (dispatches : Dispatches s.config t.pending c)
      (pending : t.pending.kind ≠ 0) (attempt_eq : t.pending.attempt = s.attempts + 1)
      (attempts_eq : t.attempts = s.attempts + 1) (receipts_eq : t.receipts = s.receipts)
  /-- It answers the transfer. -/
  | answered (pending : s.pending.kind ≠ 0) (answers : Answers s.config s.pending c)
      (idle : t.pending.kind = 0) (attempts_eq : t.attempts = s.attempts)
      (receipts_eq : t.receipts = s.receipts ++ [causeHash c])

omit [Target] in
/-- The header of an accepted callback tells what it reports. -/
theorem accepted_of_returns {source : AccountAddress} {message : InternalMessage}
    {h : CallbackHeader} (haccepted : c.Accepted) (ret : Returns c.input source message h) :
    c.AcceptedCallback ∧ causeHash c = h.causeMsgHash ∧ (c.AcceptedReceipt ↔ h.statusCode = 0) ∧
      (c.AcceptedBounce ↔ h.statusCode ≠ 0) := by
  have hheader : c.input.message.callbackHeader = some h := by
    rw [ret.message_eq]
    exact ret.header
  have hcallback : c.AcceptedCallback := ⟨haccepted, ret.is_callback⟩
  refine ⟨hcallback, ?_, ?_, ?_⟩
  · rw [causeHash, hheader]
    rfl
  · unfold Call.AcceptedReceipt
    rw [hheader]
    constructor
    · rintro ⟨-, h', hmem, hstatus⟩
      rw [Option.mem_def, Option.some.injEq] at hmem
      exact hmem ▸ hstatus
    · exact fun hstatus => ⟨hcallback, h, rfl, hstatus⟩
  · unfold Call.AcceptedBounce
    rw [hheader]
    constructor
    · rintro ⟨-, h', hmem, hstatus⟩
      rw [Option.mem_def, Option.some.injEq] at hmem
      exact hmem ▸ hstatus
    · exact fun hstatus => ⟨hcallback, h, rfl, hstatus⟩

/-- **What a step does to the transfer.** -/
theorem transferMove_of_performs (h : s.Valid) (hc : Performs State.encode Step s c t o) :
    TransferMove c s t := by
  have ht := hc.step.valid h
  have hnot {method : U64} {actor : Bytes32} (ask : Asks c.input method actor)
      (hne : method ≠ Ids.pay ∧ method ≠ Ids.refund) : ¬ IsTransferCall c := by
    rintro (hdispatch | hcallback)
    · exact not_isDispatch_of_asks ask hne hdispatch
    · exact ask.not_callback hcallback.2
  have hstep := hc.step
  cases hstep with
  | status ask => exact .other (hnot ask (by decide)) rfl rfl rfl fun _ => rfl
  | topup ask => exact .other (hnot ask (by decide)) rfl rfl rfl fun _ => rfl
  | fund ask ok =>
      exact .other (hnot ask (by decide)) rfl rfl rfl fun hno => absurd ok.idle hno
  | submit ask ok =>
      exact .other (hnot ask (by decide)) rfl rfl rfl fun hno => absurd ok.idle hno
  | approve ask ok =>
      exact .other (hnot ask (by decide)) rfl rfl rfl fun hno => absurd ok.idle hno
  | pay ask ok =>
      refine .sent ok.idle ⟨⟨hc.accepted, ask.not_callback, ask.method_eq⟩, .inl rfl, hc.outbound,
        hc.callbacks⟩ ?_ rfl rfl rfl
      exact (by decide : (1 : U8) ≠ 0)
  | refund ask ok =>
      refine .sent ok.idle ⟨⟨hc.accepted, ask.not_callback, ask.method_eq⟩, .inr rfl, hc.outbound,
        hc.callbacks⟩ ?_ rfl rfl rfl
      exact (by decide : (2 : U8) ≠ 0)
  | @receipt source message header ret ok arrived =>
      obtain ⟨hcallback, hhash, hreceipt, hbounce⟩ := accepted_of_returns hc.accepted ret
      have hsource : c.input.caller = .internal (s.config.recipient s.pending.kind) := by
        rw [ret.caller, ok.source_eq]
      have hfees : c.attached principalCurrencyId = 0 := by
        unfold Call.attached
        rw [ret.message_eq]
        refine amountOf_eq_zero fun entry hentry => ?_
        rw [arrived.fees entry hentry]
        decide
      have hbody : c.input.message.body = paymentBody s.pending := by
        rw [ret.message_eq]
        exact arrived.body
      have hsettled : (s.settled header.causeMsgHash).pending.kind = 0 ∧
          (s.settled header.causeMsgHash).attempts = s.attempts ∧
          (s.settled header.causeMsgHash).receipts = s.receipts ++ [header.causeMsgHash] := by
        unfold State.settled
        split_ifs <;> exact ⟨rfl, rfl, rfl⟩
      refine .answered ok.pending ⟨hcallback, hsource, .inl (hreceipt.mpr arrived.success),
        fun _ => ⟨hbody, hfees⟩, fun hno => absurd arrived.success (hbounce.mp hno)⟩ hsettled.1
        hsettled.2.1 ?_
      rw [hhash]
      exact hsettled.2.2
  | @bounce source message header ret ok returned =>
      obtain ⟨hcallback, hhash, hreceipt, hbounce⟩ := accepted_of_returns hc.accepted ret
      have hsource : c.input.caller = .internal (s.config.recipient s.pending.kind) := by
        rw [ret.caller, ok.source_eq]
      have hattached : c.attached principalCurrencyId = s.pending.amount.toNat := by
        rw [attached_principal hc.wellFormed, ret.message_eq]
        exact congrArg BitVec.toNat returned.value
      refine .answered ok.pending ⟨hcallback, hsource, .inr (hbounce.mpr returned.failure),
        fun hno => absurd (hreceipt.mp hno) returned.failure, fun _ => ⟨hattached, s,
          s.closed header.causeMsgHash, ?_, ?_, ⟨rfl, rfl, rfl, rfl⟩⟩⟩ rfl rfl ?_
      · rw [hc.before]
        exact h.decode_encode
      · rw [hc.after]
        exact ht.decode_encode
      · rw [hhash]
        rfl

/-- What a call of a run does to the transfer. -/
theorem transferMove_of_moves (h : s.Valid) (hmove : escrowMachine.Moves s c t) :
    TransferMove c s t := by
  rcases moves_cases hmove with ⟨o, hc⟩ | ⟨rfl, hignored⟩
  · exact transferMove_of_performs h hc
  · refine .other ?_ rfl rfl rfl fun _ => rfl
    rintro ((hpay | hrefund) | hcallback)
    · exact hignored.refused hpay.1
    · exact hignored.refused hrefund.1
    · exact hignored.refused hcallback.1

/-! ## Every run -/

/-- What the state knows of the transfer that a call has sent. -/
def Holds (config : Config) (sent : Option Call) (s : State) : Prop :=
  s.config = config ∧ match sent with
    | none => s.pending.kind = 0
    | some d => s.pending.kind ≠ 0 ∧ Dispatches config s.pending d

/-- **Transfers and callbacks alternate.** -/
theorem transfers_alternate (hrun : escrowMachine.Runs start calls s) :
    Alternates (fun d => ∃ p, Dispatches s.config p d)
      (fun d c => ∃ p, Dispatches s.config p d ∧ Answers s.config p c)
      (calls.filter (IsTransferCall ·)) := by
  have hterms := terms_of_runs hrun
  have hmoves {es : List Call} {s t : State} {c : Call} (hrun : escrowMachine.Runs start es s)
      (hmove : escrowMachine.Moves s c t) : TransferMove c s t ∧ t.config = s.config :=
    ⟨transferMove_of_moves (escrow_implements.stored_of_runs hrun) hmove,
      (later_of_moves hrun hmove).config_eq⟩
  have hpaired : ∃ o, Paired (fun d => ∃ p, Dispatches s.config p d)
      (fun d c => ∃ p, Dispatches s.config p d ∧ Answers s.config p c)
      (calls.filter (IsTransferCall ·)) o ∧ Holds s.config o s := by
    refine hrun.paired IsTransferCall _ _ (Holds s.config) ?_ ?_ ?_ ?_
    · intro t ht
      exact ⟨Terms.unique ht.2.config_eq hterms, by rw [ht.2.state_eq]; rfl⟩
    · intro es u c v sent hrun hJ hmove hno
      obtain ⟨htransfer, hconfig⟩ := hmoves hrun hmove
      refine ⟨hconfig.trans hJ.1, ?_⟩
      have hheld := hJ.2
      cases htransfer with
      | other hcall hpending =>
          rw [hpending]
          exact hheld
      | sent hidle hdispatches => exact absurd (.inl (isDispatch_of_method hdispatches.method)) hno
      | answered hpending hanswers => exact absurd (.inr hanswers.accepted) hno
    · intro es u c v hrun hJ hmove hsel
      obtain ⟨htransfer, hconfig⟩ := hmoves hrun hmove
      have hheld : u.pending.kind = 0 := hJ.2
      cases htransfer with
      | other hcall => exact absurd hsel hcall
      | sent hidle hdispatches hpending =>
          rw [hJ.1] at hdispatches
          exact ⟨⟨_, hdispatches⟩, hconfig.trans hJ.1, hpending, hdispatches⟩
      | answered hpending => exact absurd hheld hpending
    · intro es u c v d hrun hJ hmove hsel
      obtain ⟨htransfer, hconfig⟩ := hmoves hrun hmove
      obtain ⟨hpending, hdispatched⟩ := hJ.2
      cases htransfer with
      | other hcall => exact absurd hsel hcall
      | sent hidle => exact absurd hidle hpending
      | answered hpending hanswers hidle =>
          rw [hJ.1] at hanswers
          exact ⟨⟨_, hdispatched, hanswers⟩, hconfig.trans hJ.1, hidle⟩
  obtain ⟨o, hpaired, -⟩ := hpaired
  exact hpaired.alternates

/-- **The attempts** are numbered one by one. -/
theorem attempts_numbered (hrun : escrowMachine.Runs start calls s) :
    (calls.filter (IsDispatch ·)).map (fun c => (sentAttempt c).toNat) =
      List.range' 1 s.attempts.toNat := by
  refine hrun.numbered IsDispatch (fun c => (sentAttempt c).toNat) (fun s => s.attempts.toNat)
    (fun t ht => by rw [ht.2.state_eq]; rfl) fun es u c v hrun hmove => ?_
  have hu := escrow_implements.stored_of_runs hrun
  have hle := hu.attempts_le
  cases transferMove_of_moves hu hmove with
  | other hcall hpending hattempts =>
      exact ⟨fun hno => absurd (.inl hno) hcall, fun _ => by rw [hattempts]⟩
  | answered hpending hanswers hidle hattempts =>
      exact ⟨fun hno => absurd hno (not_isDispatch_of_callback hanswers.accepted),
        fun _ => by rw [hattempts]⟩
  | sent hidle hdispatches hpending hattempt hattempts =>
      refine ⟨fun _ => ?_, fun hno => absurd (isDispatch_of_method hdispatches.method) hno⟩
      have hone : (1 : U64).toNat = 1 := rfl
      have hnext : (u.attempts + 1).toNat = u.attempts.toNat + 1 := by
        unfold maxAttempts at hle
        rw [BitVec.toNat_add_of_lt (by omega), hone]
      have hsent : sentAttempt c = v.pending.attempt := by
        rw [sentAttempt, hdispatches.intents]
        exact bodyAttempt_paymentBody v.pending
      rw [hsent, hattempt, hattempts]
      exact ⟨hnext, hnext⟩

/-- **The receipts** are the hashes of all accepted callbacks. -/
theorem hashes_eq_receipts (hrun : escrowMachine.Runs start calls s) :
    (calls.filter (Call.AcceptedCallback ·)).map causeHash = s.receipts := by
  refine hrun.invariant
    (I := fun es s => (es.filter (Call.AcceptedCallback ·)).map causeHash = s.receipts)
    (fun t ht => by rw [ht.2.state_eq]; rfl) fun es u c v hrun ih hmove => ?_
  have hskip (hno : ¬ c.AcceptedCallback) (hsame : v.receipts = u.receipts) :
      ((es ++ [c]).filter (Call.AcceptedCallback ·)).map causeHash = v.receipts := by
    have hdropped : [c].filter (Call.AcceptedCallback ·) = [] := by simp [hno]
    rw [List.filter_append, hdropped, List.append_nil, ih, hsame]
  cases transferMove_of_moves (escrow_implements.stored_of_runs hrun) hmove with
  | other hcall hpending hattempts hreceipts => exact hskip (fun hno => hcall (.inr hno)) hreceipts
  | sent hidle hdispatches hpending hattempt hattempts hreceipts =>
      exact hskip (fun hno => hdispatches.method.2.1 hno.2) hreceipts
  | answered hpending hanswers hidle hattempts hreceipts =>
      have hkept : [c].filter (Call.AcceptedCallback ·) = [c] := by simp [hanswers.accepted]
      rw [List.filter_append, hkept, List.map_append, ih, hreceipts]
      rfl

/-- **Transfers** after some calls. -/
structure TransfersSettle (config : Config) (calls : List Call) : Prop where
  /-- Every callback answers the transfer that was sent just before. -/
  alternate : Alternates (fun d => ∃ p, Dispatches config p d)
    (fun d c => ∃ p, Dispatches config p d ∧ Answers config p c) (calls.filter (IsTransferCall ·))
  numbered : (calls.filter (IsDispatch ·)).map (fun c => (sentAttempt c).toNat) =
    List.range' 1 (calls.filter (IsDispatch ·)).length
  limit : (calls.filter (IsDispatch ·)).length ≤ 64
  /-- No callback is accepted twice. -/
  hashes_nodup : ((calls.filter (Call.AcceptedCallback ·)).map causeHash).Nodup
  /-- While a transfer is pending nothing but its callback changes the state. -/
  locked : ∀ c ∈ calls, ∀ s, State.decode c.before = .ok s → s.pending.kind ≠ 0 →
    ¬ c.AcceptedCallback → c.after = c.before

/-- **Every transfer settles exactly once.** -/
theorem transfers_settle_once {b : Bytes} (hrun : escrow.Runs start calls b) :
    ∃ config, Terms start config ∧ TransfersSettle config calls := by
  obtain ⟨s, hruns, hvalid, rfl⟩ := escrow_implements.runs hrun
  have hnumbered := attempts_numbered hruns
  have hcount : (calls.filter (IsDispatch ·)).length = s.attempts.toNat := by
    rw [← List.length_map, hnumbered, List.length_range']
  refine ⟨s.config, terms_of_runs hruns, transfers_alternate hruns, ?_, ?_, ?_, ?_⟩
  · rw [hcount]
    exact hnumbered
  · rw [hcount]
    exact hvalid.attempts_le
  · rw [hashes_eq_receipts hruns]
    exact hvalid.receipts_nodup
  · intro c hc t hdecode hpending hcallback
    obtain ⟨pre, u, v, -, hu, hv, hcase⟩ := runs_call escrow_implements hruns hc
    rcases hcase with ⟨o, hperforms⟩ | ⟨-, hignored⟩
    · rw [hperforms.before, hu.decode_encode, Except.ok.injEq] at hdecode
      subst hdecode
      rw [hperforms.after, hperforms.before]
      cases transferMove_of_performs hu hperforms with
      | other hcall _ _ _ hbusy => rw [hbusy hpending]
      | sent hidle => exact absurd hidle hpending
      | answered _ hanswers => exact absurd hanswers.accepted hcallback
    · rw [hignored.after, hignored.before]

end

/-- An escrow after a payment that came back, one that arrived, and a refund. -/
theorem transfers_settle_once_sample :
    letI := Target.wasm32
    (∃ c ∈ sampleHistory, c.AcceptedBounce) ∧ (∃ c ∈ sampleHistory, c.AcceptedReceipt) ∧
      ∃ config, Terms sampleStart config ∧ TransfersSettle config sampleHistory := by
  let _ := Target.wasm32
  obtain ⟨hbounce, ⟨c, hc, hreceipt, -⟩, -⟩ := sampleHistory_accepts
  exact ⟨hbounce, ⟨c, hc, hreceipt⟩, transfers_settle_once sampleHistoryRun⟩

end AvmSdk.Escrow
