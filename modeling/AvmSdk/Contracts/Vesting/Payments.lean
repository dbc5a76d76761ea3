import AvmSdk.Contracts.Payments
import AvmSdk.Contracts.Vesting.Conservation

/-!
# Payments and their settlement

What the history of a vesting contract says about the payments over the lanes of its streams: each
is answered at most once and in its own lane, whatever callback messages arrive.

* `Sends`, `Closes`, `Rests`, `moves_cases_lanes`: a call sends a payment over a lane, closes one, or
  touches no lane.
* `streamLanes`: the lanes of the streams as lanes over which the contract pays.
  `streamLanes_runs`: every run of the contract is a run of its lanes.
* `SettlesOnce`, `payments_settle_once`: all of it, for every run.
-/

namespace AvmSdk.Vesting

open Wire Sdk Contracts Trace

/-! ## Payment bodies -/

/-- The nonce in the body of a payment. -/
def bodyNonce (b : Bytes) : U64 := ofLe 64 (b.extract 2 10)

/-- The amount in the body of a payment. -/
def bodyAmount (b : Bytes) : U128 := ofLe 128 (b.extract 10 26)

section

variable {index kind : U8} {nonce : U64} {amount : U128}

/-- The nonce that a payment names, -/
@[simp] theorem bodyNonce_paymentBody : bodyNonce (paymentBody index kind nonce amount) = nonce := by
  obtain ⟨-, -, hnonce, -⟩ := (paymentBody_eq_iff (length_paymentBody index kind nonce amount)).mp rfl
  unfold bodyNonce
  rw [← hnonce]
  exact ofLe_toLe (by decide) nonce

/-- and the amount. -/
@[simp] theorem bodyAmount_paymentBody :
    bodyAmount (paymentBody index kind nonce amount) = amount := by
  obtain ⟨-, -, -, hamount⟩ := (paymentBody_eq_iff (length_paymentBody index kind nonce amount)).mp rfl
  unfold bodyAmount
  rw [← hamount]
  exact ofLe_toLe (by decide) amount

end

/-- The lanes of the streams of a configuration. -/
abbrev ActiveLane (config : Config) : Type :=
  { p : Fin maxStreams × Fin 2 // config.Active p.1 }

/-- The account at the end of a lane. -/
def Config.account (config : Config) (p : Fin maxStreams × Fin 2) : AccountAddress :=
  (config.streams p.1).destination p.2

/-- An accepted claim or refund over a lane. -/
def IsPayment (p : Fin maxStreams × Fin 2) (c : Call) : Prop :=
  c.AcceptedMethod (payMethod p.2) ∧ c.input.message.body = [BitVec.ofNat 8 p.1.val]

instance (p : Fin maxStreams × Fin 2) : DecidablePred (IsPayment p) :=
  fun _ => inferInstanceAs (Decidable (_ ∧ _))

/-- An accepted claim or refund. -/
def IsDispatch (c : Call) : Prop := c.AcceptedMethod Ids.claim ∨ c.AcceptedMethod Ids.refund

instance : DecidablePred IsDispatch := fun _ => inferInstanceAs (Decidable (_ ∨ _))

/-- The body of a payment over a lane. -/
def laneBody (p : Fin maxStreams × Fin 2) (nonce : U64) (amount : U128) : Bytes :=
  paymentBody (BitVec.ofNat 8 p.1.val) (BitVec.ofNat 8 p.2.val) nonce amount

/-- A lane of a state. -/
def State.laneState (s : State) (p : Fin maxStreams × Fin 2) : LaneState :=
  ⟨((s.progress p.1).lanes p.2).pending, ((s.progress p.1).lanes p.2).nonce,
    ((s.progress p.1).lanes p.2).lastLt, ((s.progress p.1).paid p.2).toNat⟩

/-- The lanes of the streams, over which the contract pays. -/
def streamLanes (config : Config) : Payer (ActiveLane config) State where
  destination p := config.account p.val
  method := Ids.receive
  handler := Ids.callback
  body p := laneBody p.val
  bodyNonce := bodyNonce
  bodyAmount := bodyAmount
  Dispatches := IsDispatch
  decidableDispatches := inferInstance
  Opens p := IsPayment p.val
  decidableOpens _ := inferInstance
  lane s p := s.laneState p.val
  counter := State.nonce

/-! ## Calls and lanes -/

/-- The lanes and the cancellations of all streams but one lane are the same. -/
structure SameBut (p : Fin maxStreams × Fin 2) (s t : State) : Prop where
  lanes : ∀ j l, (j, l) ≠ p → (t.progress j).lanes l = (s.progress j).lanes l
  paid : ∀ j l, (j, l) ≠ p → (t.progress j).paid l = (s.progress j).paid l
  cancelled : ∀ j, (t.progress j).cancelled = (s.progress j).cancelled
  cap : ∀ j, (t.progress j).cap = (s.progress j).cap

/-- A change of one lane changes no other. -/
theorem sameBut_withLane {s : State} {i : Fin maxStreams} {k : Fin 2} {paid : U128} {lane : Lane}
    {nonce : U64} :
    SameBut (i, k) s (s.withProgress i ((s.progress i).withLane k paid lane) nonce) := by
  have hframe {j : Fin maxStreams} {l : Fin 2} (h : (j, l) ≠ (i, k)) (hji : j = i) : l ≠ k := by
    intro hlk
    exact h (by rw [hji, hlk])
  constructor
  · intro j l h
    by_cases hji : j = i
    · rw [hji, State.withProgress_self, Progress.lanes_withLane_of_ne (hframe h hji)]
    · rw [State.withProgress_of_ne hji]
  · intro j l h
    by_cases hji : j = i
    · rw [hji, State.withProgress_self, Progress.paid_withLane_of_ne (hframe h hji)]
    · rw [State.withProgress_of_ne hji]
  · intro j
    by_cases hji : j = i
    · rw [hji, State.withProgress_self]
      rfl
    · rw [State.withProgress_of_ne hji]
  · intro j
    by_cases hji : j = i
    · rw [hji, State.withProgress_self]
      rfl
    · rw [State.withProgress_of_ne hji]

/-- The time is no part of a lane. -/
theorem SameBut.of_observed {p : Fin maxStreams × Fin 2} {s t : State} {now : U32}
    (h : SameBut p (s.observed now) t) : SameBut p s t :=
  ⟨h.lanes, h.paid, h.cancelled, h.cap⟩

section

variable [Target] {config : Config} {s t : State} {c : Call} {o : Option Transfer}
  {start : MessageInput} {calls : List Call} {p q : Fin maxStreams × Fin 2}

/-- An accepted callback from the account at the end of a lane. -/
def IsAnswer (config : Config) (p : Fin maxStreams × Fin 2) (c : Call) : Prop :=
  c.AcceptedCallback ∧ c.input.caller = .internal (config.account p)

instance (config : Config) (p : Fin maxStreams × Fin 2) : DecidablePred (IsAnswer config p) :=
  fun _ => inferInstanceAs (Decidable (_ ∧ _))

/-- The call emits one message: the payment of an amount, and nothing else, over a lane. It asks for
a callback. -/
def Pays (config : Config) (p : Fin maxStreams × Fin 2) (nonce : U64) (amount : U128) (c : Call) :
    Prop :=
  (∃ fuel : U128, c.output.outboundIntents =
    [{ inputIndex := 0
       destination := config.account p
       fuelFeeShells := fuel
       extra := [⟨principalCurrencyId, amount⟩]
       methodId := Ids.receive
       body := laneBody p nonce amount }]) ∧
    c.output.callbackIntents = [⟨0, Ids.callback⟩]

/-- A callback answers a payment: it reports the success of exactly this payment, or brings exactly
this amount back. -/
def Answers (config : Config) (p : Fin maxStreams × Fin 2) (a c : Call) : Prop :=
  IsAnswer config p c ∧ ∃ nonce amount, Pays config p nonce amount a ∧
    (c.AcceptedReceipt ∧ c.input.message.body = laneBody p nonce amount ∨
      c.AcceptedBounce ∧ c.attached principalCurrencyId = amount.toNat)

/-- The call sends what is due over a lane. -/
structure Sends (s : State) (c : Call) (t : State) (p : Fin maxStreams × Fin 2) (nonce : U64)
    (amount : U128) : Prop where
  active : s.config.Active p.1
  payment : IsPayment p c
  signed : c.input.caller = .external (s.config.signer p.1 p.2)
  pays : Pays s.config p nonce amount c
  due : (s.observed c.input.context.blockTime).due p.1 p.2
    (s.observed c.input.context.blockTime).lastTime = .ok amount
  idle : (s.laneState p).pending = 0
  some : amount ≠ 0
  nonce_eq : s.nonce.toNat + 1 = nonce.toNat
  counter_eq : t.nonce = nonce
  lane_eq : t.laneState p = { s.laneState p with pending := amount, nonce := nonce }
  others : SameBut p s t

/-- The callback closes a lane. -/
structure Closes (s : State) (c : Call) (t : State) (p : Fin maxStreams × Fin 2) : Prop where
  active : s.config.Active p.1
  answer : IsAnswer s.config p c
  pending : (s.laneState p).pending ≠ 0
  later : (s.laneState p).lastLt < c.input.message.createdLt
  result : c.AcceptedReceipt ∧
      c.input.message.body = laneBody p (s.laneState p).nonce (s.laneState p).pending ∧
      t.laneState p = ⟨0, 0, c.input.message.createdLt,
        (s.laneState p).settled + (s.laneState p).pending.toNat⟩ ∨
    c.AcceptedBounce ∧ c.attached principalCurrencyId = (s.laneState p).pending.toNat ∧
      t.laneState p = ⟨0, 0, c.input.message.createdLt, (s.laneState p).settled⟩
  counter_eq : t.nonce = s.nonce
  others : SameBut p s t
  silent : c.output.outboundIntents = []

/-- The call touches no lane. -/
structure Rests (s : State) (c : Call) (t : State) : Prop where
  not_dispatch : ¬ IsDispatch c
  not_callback : ¬ c.AcceptedCallback
  silent : c.output.outboundIntents = []
  counter_eq : t.nonce = s.nonce
  lanes : ∀ j l, (t.progress j).lanes l = (s.progress j).lanes l
  paid : ∀ j l, (t.progress j).paid l = (s.progress j).paid l

omit [Target] in
/-- A lane that was changed. -/
theorem laneState_withLane {i : Fin maxStreams} {k : Fin 2} {paid : U128} {lane : Lane}
    {nonce : U64} :
    (s.withProgress i ((s.progress i).withLane k paid lane) nonce).laneState (i, k) =
      ⟨lane.pending, lane.nonce, lane.lastLt, paid.toNat⟩ := by
  unfold State.laneState
  rw [State.withProgress_self, Progress.lanes_withLane, Progress.paid_withLane]

omit [Target] in
/-- The header and the time of a callback message. -/
theorem createdLt_of_returns {source : AccountAddress} {message : InternalMessage}
    {h : CallbackHeader} (ret : Returns c.input source message h) :
    c.input.message.callbackHeader = some h ∧ c.input.message.createdLt = message.createdLt := by
  rw [ret.message_eq]
  exact ⟨ret.header, rfl⟩

omit [Target] in
/-- The call of another method is no dispatch. -/
theorem not_isDispatch_of_asks {method : U64} {actor : Bytes32} (ask : Asks c.input method actor)
    (hclaim : method ≠ Ids.claim) (hrefund : method ≠ Ids.refund) : ¬ IsDispatch c := by
  rintro (h | h)
  · exact not_acceptedMethod_of_asks ask hclaim h
  · exact not_acceptedMethod_of_asks ask hrefund h

omit [Target] in
/-- A payment is a dispatch. -/
theorem isDispatch_of_isPayment (h : IsPayment p c) : IsDispatch c := by
  have hcases : p.2 = 0 ∨ p.2 = 1 := by omega
  obtain ⟨hmethod, -⟩ := h
  rcases hcases with hk | hk
  · rw [hk] at hmethod
    exact .inl hmethod
  · rw [hk] at hmethod
    exact .inr hmethod

/-- An accepted payment. -/
theorem sends_of_performs (hc : Performs State.encode Step s c t o) {actor : Bytes32}
    {i : Fin maxStreams} {k : Fin 2} {amount : U128} {nonce : U64}
    (ask : Asks c.input (payMethod k) actor)
    (ok : PayOk c.input actor (s.observed c.input.context.blockTime) i k amount nonce)
    (ht : t = (s.observed c.input.context.blockTime).locked i k amount nonce c.input.context.blockLt)
    (ho : o = some (payment (s.observed c.input.context.blockTime) i k nonce amount)) :
    Sends s c t (i, k) nonce amount := by
  subst ht ho
  have hsigner : s.config.signer i k = actor := ok.signer
  refine ⟨ok.active, ⟨⟨hc.accepted, ask.not_callback, ask.method_eq⟩, ok.body⟩, ?_,
    ⟨⟨s.config.fuel, hc.outbound⟩, hc.callbacks⟩, ok.due, ok.idle, ok.some, ok.nonce_eq, rfl, ?_,
    sameBut_withLane.of_observed⟩
  · rw [ask.caller, hsigner]
  · exact laneState_withLane

/-- **A call** sends a payment, closes a lane, or touches none. -/
theorem moves_cases_lanes (hs : s.Valid) (hmove : vestingMachine.Moves s c t) :
    (∃ p nonce amount, Sends s c t p nonce amount) ∨ (∃ p, Closes s c t p) ∨ Rests s c t := by
  rcases moves_cases hmove with ⟨o, hc⟩ | ⟨rfl, hc⟩
  · have hv := hs.observed c.input.context.blockTime
    have hplain {method : U64} {actor : Bytes32} (ask : Asks c.input method actor) :
        ¬ c.AcceptedCallback := fun h => ask.not_callback h.2
    have hout := hc.outbound
    cases hc.step with
    | topup ask =>
        exact .inr (.inr ⟨not_isDispatch_of_asks ask (by decide) (by decide), hplain ask, hout, rfl,
          fun _ _ => rfl, fun _ _ => rfl⟩)
    | fund ask =>
        exact .inr (.inr ⟨not_isDispatch_of_asks ask (by decide) (by decide), hplain ask, hout, rfl,
          fun _ _ => rfl, fun _ _ => rfl⟩)
    | status ask =>
        exact .inr (.inr ⟨not_isDispatch_of_asks ask (by decide) (by decide), hplain ask, hout, rfl,
          fun _ _ => rfl, fun _ _ => rfl⟩)
    | @cancel _ i cap ask free ok =>
        have hself : ∀ j, ((s.observed c.input.context.blockTime).cancelled i cap).progress j =
            s.progress j ∨ ((s.observed c.input.context.blockTime).cancelled i cap).progress j =
              { s.progress j with
                cancelled := true
                cutoff := (s.observed c.input.context.blockTime).lastTime
                cap := cap } := by
          intro j
          by_cases hji : j = i
          · rw [hji]
            exact .inr State.withProgress_self
          · exact .inl (State.withProgress_of_ne hji)
        refine .inr (.inr ⟨not_isDispatch_of_asks ask (by decide) (by decide), hplain ask, hout, rfl,
          fun j l => ?_, fun j l => ?_⟩)
        · rcases hself j with h | h <;> rw [h]
        · rcases hself j with h | h <;> rw [h]
          rfl
    | pay ask free ok => exact .inl ⟨_, _, _, sends_of_performs hc ask ok rfl rfl⟩
    | @receipt source message header i k ret ok arrived =>
        obtain ⟨hheader, hlt⟩ := createdLt_of_returns ret
        have hsource : s.config.account (i, k) = source := ok.source_eq
        have hfits := hv.paid_add_lt ok.active k
        refine .inr (.inl ⟨(i, k), ok.active, ⟨⟨hc.accepted, ret.is_callback⟩, ?_⟩, ok.pending, ?_,
          .inl ⟨⟨⟨hc.accepted, ret.is_callback⟩, header, hheader, arrived.success⟩, ?_, ?_⟩, rfl,
          sameBut_withLane.of_observed, hout⟩)
        · rw [ret.caller, hsource]
        · rw [hlt]
          exact ok.later
        · rw [ret.message_eq]
          exact arrived.body
        · rw [hlt]
          unfold State.settled
          rw [laneState_withLane, BitVec.toNat_add_of_lt hfits]
          rfl
    | @bounce source message header i k ret ok returned =>
        obtain ⟨hheader, hlt⟩ := createdLt_of_returns ret
        have hsource : s.config.account (i, k) = source := ok.source_eq
        refine .inr (.inl ⟨(i, k), ok.active, ⟨⟨hc.accepted, ret.is_callback⟩, ?_⟩, ok.pending, ?_,
          .inr ⟨⟨⟨hc.accepted, ret.is_callback⟩, header, hheader, returned.failure⟩, ?_, ?_⟩, rfl,
          sameBut_withLane.of_observed, hout⟩)
        · rw [ret.caller, hsource]
        · rw [hlt]
          exact ok.later
        · have hwf := hc.wellFormed.message_ok.extra_ok
          rw [ret.message_eq] at hwf
          unfold Call.attached
          rw [ret.message_eq]
          exact returned.attached hwf
        · rw [hlt]
          unfold State.released
          rw [laneState_withLane]
          rfl
  · refine .inr (.inr ⟨?_, fun h => hc.refused h.1, hc.outbound, rfl, fun _ _ => rfl, fun _ _ => rfl⟩)
    rintro (h | h)
    · exact hc.refused h.1
    · exact hc.refused h.1

/-! ## Runs of the lanes -/

omit [Target] in
/-- The method and the body of a payment name its lane. -/
theorem eq_of_isPayment (hp : IsPayment p c) (hq : IsPayment q c) : p = q := by
  have hmethods : payMethod 0 ≠ payMethod 1 := by decide
  have hmethod : payMethod p.2 = payMethod q.2 := hp.1.2.2.symm.trans hq.1.2.2
  have hcases (k : Fin 2) : k = 0 ∨ k = 1 := by omega
  refine Prod.ext (eq_of_body hp.2 hq.2) ?_
  rcases hcases p.2 with hpk | hpk <;> rcases hcases q.2 with hqk | hqk
  · rw [hpk, hqk]
  · rw [hpk, hqk] at hmethod
    exact absurd hmethod hmethods
  · rw [hpk, hqk] at hmethod
    exact absurd hmethod.symm hmethods
  · rw [hpk, hqk]

omit [Target] in
/-- **The lanes** of a valid configuration have different accounts. -/
theorem streamLanes_lawful (h : config.Valid) : (streamLanes config).Lawful where
  destination_injective := by
    rintro ⟨⟨i, k⟩, hi⟩ ⟨⟨j, l⟩, hj⟩ heq
    have haccount : (config.streams i).destination k = (config.streams j).destination l := heq
    obtain ⟨rfl, rfl⟩ := h.destination_injective hi hj haccount
    rfl
  opens_unique _ _ _ hp hq := Subtype.ext (eq_of_isPayment hp hq)
  opens_dispatches _ _ hp := isDispatch_of_isPayment hp
  dispatches_plain _ h := h.elim (fun h => h.2.1) fun h => h.2.1
  bodyNonce_body _ _ _ := bodyNonce_paymentBody
  bodyAmount_body _ _ _ := bodyAmount_paymentBody

omit [Target] in
/-- A lane other than the one that a call is about. -/
theorem SameBut.laneState_eq (h : SameBut p s t) (hq : q ≠ p) : t.laneState q = s.laneState q := by
  have hlanes := h.lanes q.1 q.2 hq
  have hpaid := h.paid q.1 q.2 hq
  unfold State.laneState
  rw [hlanes, hpaid]

omit [Target] in
/-- An answer is about one lane. -/
theorem eq_of_isAnswer (hs : s.Valid) (hp : s.config.Active p.1) (hq : s.config.Active q.1)
    (h : IsAnswer s.config p c) (h' : IsAnswer s.config q c) : p = q := by
  have hcaller := h.2.symm.trans h'.2
  rw [Caller.internal.injEq] at hcaller
  obtain ⟨hi, hk⟩ := hs.config.destination_injective hp hq hcaller
  exact Prod.ext hi hk

/-- **A call** changes a lane in one of the four ways. -/
theorem moves_lane (hs : s.Valid) (hmove : vestingMachine.Moves s c t)
    (q : ActiveLane s.config) :
    (streamLanes s.config).LaneStep q c (s.laneState q) (t.laneState q) := by
  rcases moves_cases_lanes hs hmove with ⟨p, nonce, amount, h⟩ | ⟨p, h⟩ | h
  · have hno : ¬ IsAnswer s.config q c := by
      intro hanswer
      exact h.payment.1.2.1 hanswer.1.2
    by_cases hqp : q.val = p
    · obtain ⟨p', hp'⟩ := q
      dsimp only at hqp
      subst hqp
      rw [h.lane_eq]
      exact .opened h.payment h.pays h.idle h.some
    · rw [h.others.laneState_eq hqp]
      exact .other (fun hpayment => hqp (eq_of_isPayment hpayment h.payment)) hno
  · have hno : ¬ IsPayment q c := by
      intro hpayment
      exact hpayment.1.2.1 h.answer.1.2
    by_cases hqp : q.val = p
    · obtain ⟨p', hp'⟩ := q
      dsimp only at hqp
      subst hqp
      rcases h.result with ⟨hsuccess, hbody, hlane⟩ | ⟨hfailure, hamount, hlane⟩
      · rw [hlane]
        exact .receipt h.answer hsuccess hbody h.pending h.later
      · rw [hlane]
        exact .bounce h.answer hfailure hamount h.pending h.later
    · rw [h.others.laneState_eq hqp]
      exact .other hno fun hanswer => hqp (eq_of_isAnswer hs q.property h.active hanswer h.answer)
  · have hsame : t.laneState q = s.laneState q := by
      unfold State.laneState
      rw [h.lanes, h.paid]
    rw [hsame]
    exact .other (fun hpayment => h.not_dispatch (isDispatch_of_isPayment hpayment))
      fun hanswer => h.not_callback hanswer.1

/-- **The runs of the contract** are runs of its lanes. -/
theorem streamLanes_runs (hrun : vestingMachine.Runs start calls s) :
    (streamLanes s.config).Runs calls s := by
  have hterms := terms_of_runs hrun
  refine hrun.lift (fun u hu => ⟨?_, fun p => ?_⟩) fun es u c t hpre hmove => ?_
  · show u.nonce = 0
    rw [hu.2.state_eq]
    rfl
  · show u.laneState p = .fresh
    rw [hu.2.state_eq]
    unfold State.laneState Progress.paid
    split_ifs <;> rfl
  · have hu := vesting_implements.stored_of_runs hpre
    have hcase := moves_cases_lanes hu hmove
    rw [hterms.unique (terms_of_runs hpre)]
    refine ⟨hmove.input_wellFormed, fun q => moves_lane hu hmove q, fun q hpayment => ?_,
      fun hdispatch => ?_, fun hno => ?_, fun hcallback => ?_⟩
    · rcases hcase with ⟨p, nonce, amount, h⟩ | ⟨p, h⟩ | h
      · have hqp := eq_of_isPayment hpayment h.payment
        show u.nonce.toNat + 1 = (t.laneState q).nonce.toNat ∧ t.nonce = (t.laneState q).nonce
        rw [hqp, h.lane_eq, h.counter_eq]
        exact ⟨h.nonce_eq, rfl⟩
      · exact absurd h.answer.1.2 hpayment.1.2.1
      · exact absurd (isDispatch_of_isPayment hpayment) h.not_dispatch
    · rcases hcase with ⟨p, nonce, amount, h⟩ | ⟨p, h⟩ | h
      · exact ⟨⟨p, h.active⟩, h.payment⟩
      · exact absurd h.answer.1.2 (hdispatch.elim (fun h => h.2.1) fun h => h.2.1)
      · exact absurd hdispatch h.not_dispatch
    · rcases hcase with ⟨p, nonce, amount, h⟩ | ⟨p, h⟩ | h
      · exact absurd (isDispatch_of_isPayment h.payment) hno
      · exact h.counter_eq
      · exact h.counter_eq
    · rcases hcase with ⟨p, nonce, amount, h⟩ | ⟨p, h⟩ | h
      · exact absurd hcallback.2 h.payment.1.2.1
      · exact ⟨⟨p, h.active⟩, h.answer⟩
      · exact absurd hcallback h.not_callback

/-- Every call of a run, with the states before and after it. -/
theorem runs_states (hrun : vestingMachine.Runs start calls s) (hc : c ∈ calls) :
    ∃ t u, t.Valid ∧ s.config = t.config ∧ vestingMachine.Moves t c u ∧
      State.decode c.before = .ok t ∧ State.decode c.after = .ok u := by
  obtain ⟨pre, post, rfl⟩ := List.append_of_mem hc
  obtain ⟨t, u, hpre, hmove⟩ := hrun.before
  have ht := vesting_implements.stored_of_runs hpre
  have hu := vesting_implements.stored_of_runs (hpre.snoc hmove)
  refine ⟨t, u, ht, (terms_of_runs hrun).unique (terms_of_runs hpre), hmove, ?_⟩
  rcases moves_cases hmove with ⟨o, h⟩ | ⟨rfl, h⟩
  · rw [h.before, h.after]
    exact ⟨State.Valid.decode_encode ht, State.Valid.decode_encode hu⟩
  · rw [h.before, h.after]
    exact ⟨State.Valid.decode_encode ht, State.Valid.decode_encode ht⟩

/-! ## The payments of a contract -/

/-- **Payments settle exactly once**: what the history of a vesting contract, which is now in a
state, says about the lanes of its streams. -/
structure SettlesOnce (calls : List Call) (s : State) : Prop where
  /-- The payments and the answers of a lane alternate, and each answer is for the payment before. -/
  alternate : ∀ p : Fin maxStreams × Fin 2, s.config.Active p.1 →
    Alternates (IsPayment p) (Answers s.config p)
      (calls.filter fun c => IsPayment p c ∨ IsAnswer s.config p c)
  /-- An accepted callback comes from the account of exactly one lane, and closes it. -/
  settles : ∀ c ∈ calls, c.AcceptedCallback → ∃ p before after, s.config.Active p.1 ∧
    IsAnswer s.config p c ∧
    (∀ q : Fin maxStreams × Fin 2, s.config.Active q.1 → IsAnswer s.config q c → q = p) ∧
    State.decode c.before = .ok before ∧ State.decode c.after = .ok after ∧
    (before.laneState p).pending ≠ 0 ∧ (after.laneState p).pending = 0
  /-- The answers of a lane ascend in time. -/
  ascend : ∀ p : Fin maxStreams × Fin 2, s.config.Active p.1 →
    ((calls.filter (IsAnswer s.config p ·)).map fun c => c.input.message.createdLt.toNat).Pairwise
      (· < ·)
  /-- No callback message is accepted twice. -/
  once : ((calls.filter (Call.AcceptedCallback ·)).map fun c => c.input.message).Nodup
  /-- The payments over all lanes are numbered 1, 2, 3 and so on. -/
  numbered : (calls.filter (IsDispatch ·)).map (streamLanes s.config).sentNonce =
    List.range' 1 s.nonce.toNat
  /-- Only payments emit messages: the payee of a stream or the owner signs, and what is due goes to
  the account of the lane. -/
  emits : ∀ c ∈ calls, c.output.outboundIntents ≠ [] → ∃ p nonce amount before,
    s.config.Active p.1 ∧ IsPayment p c ∧
    c.input.caller = .external (if p.2 = 0 then (s.config.streams p.1).key else s.config.owner) ∧
    State.decode c.before = .ok before ∧
    (before.observed c.input.context.blockTime).due p.1 p.2
      (before.observed c.input.context.blockTime).lastTime = .ok amount ∧
    Pays s.config p nonce amount c
  /-- A payment emits a message. -/
  payments_emit : ∀ c ∈ calls, IsDispatch c → c.output.outboundIntents ≠ []
  /-- A call about a lane leaves all other lanes. -/
  frame : ∀ c ∈ calls, ∃ before after, State.decode c.before = .ok before ∧
    State.decode c.after = .ok after ∧ ∀ p : Fin maxStreams × Fin 2, s.config.Active p.1 →
      IsPayment p c ∨ IsAnswer s.config p c → SameBut p before after

/-- **Payments settle exactly once**, in every run and for every callback message. -/
theorem payments_settle_once {b : Bytes} (hrun : vesting.Runs start calls b) :
    ∃ s, Terms start s.config ∧ State.decode b = .ok s ∧ SettlesOnce calls s := by
  obtain ⟨s, hruns, hvalid, rfl⟩ := vesting_implements.runs hrun
  have hlawful := streamLanes_lawful hvalid.config
  have hlanes := streamLanes_runs hruns
  refine ⟨s, terms_of_runs hruns, hvalid.decode_encode,
    fun p hp => Payer.alternates hlanes ⟨p, hp⟩, ?_,
    fun p hp => (Payer.answers_ascend hlawful hlanes ⟨p, hp⟩).1, Payer.answers_nodup hlawful hlanes,
    Payer.dispatches_numbered hlawful hlanes, ?_, ?_, ?_⟩
  · intro c hc hcallback
    obtain ⟨t, u, ht, hconfig, hmove, hbefore, hafter⟩ := runs_states hruns hc
    rw [hconfig]
    rcases moves_cases_lanes ht hmove with ⟨p, nonce, amount, h⟩ | ⟨p, h⟩ | h
    · exact absurd hcallback.2 h.payment.1.2.1
    · refine ⟨p, t, u, h.active, h.answer,
        fun q hq hanswer => eq_of_isAnswer ht hq h.active hanswer h.answer, hbefore, hafter,
        h.pending, ?_⟩
      rcases h.result with ⟨-, -, hlane⟩ | ⟨-, -, hlane⟩ <;> rw [hlane]
    · exact absurd hcallback h.not_callback
  · intro c hc hemits
    obtain ⟨t, u, ht, hconfig, hmove, hbefore, -⟩ := runs_states hruns hc
    rw [hconfig]
    rcases moves_cases_lanes ht hmove with ⟨p, nonce, amount, h⟩ | ⟨p, h⟩ | h
    · exact ⟨p, nonce, amount, t, h.active, h.payment, h.signed, hbefore, h.due, h.pays⟩
    · exact absurd h.silent hemits
    · exact absurd h.silent hemits
  · intro c hc hdispatch
    obtain ⟨t, u, ht, hconfig, hmove, -, -⟩ := runs_states hruns hc
    rcases moves_cases_lanes ht hmove with ⟨p, nonce, amount, h⟩ | ⟨p, h⟩ | h
    · obtain ⟨⟨fuel, hout⟩, -⟩ := h.pays
      rw [hout]
      exact List.cons_ne_nil _ _
    · exact absurd h.answer.1.2 (hdispatch.elim (fun h => h.2.1) fun h => h.2.1)
    · exact absurd hdispatch h.not_dispatch
  · intro c hc
    obtain ⟨t, u, ht, hconfig, hmove, hbefore, hafter⟩ := runs_states hruns hc
    refine ⟨t, u, hbefore, hafter, fun p hp habout => ?_⟩
    rw [hconfig] at hp habout
    rcases moves_cases_lanes ht hmove with ⟨q, nonce, amount, h⟩ | ⟨q, h⟩ | h
    · rcases habout with hpayment | hanswer
      · rw [eq_of_isPayment hpayment h.payment]
        exact h.others
      · exact absurd hanswer.1.2 h.payment.1.2.1
    · rcases habout with hpayment | hanswer
      · exact absurd h.answer.1.2 hpayment.1.2.1
      · rw [eq_of_isAnswer ht hp h.active hanswer h.answer]
        exact h.others
    · rcases habout with hpayment | hanswer
      · exact absurd (isDispatch_of_isPayment hpayment) h.not_dispatch
      · exact absurd hanswer.1 h.not_callback

end

/-- A contract after a payment that arrived, one that came back, and a second try. -/
theorem payments_settle_once_sample :
    letI := Target.wasm32
    (∃ c ∈ sampleHistory, c.AcceptedReceipt) ∧ (∃ c ∈ sampleHistory, c.AcceptedBounce) ∧
      ∃ s, Terms sampleStart s.config ∧ State.decode sampleRetried.encode = .ok s ∧
        SettlesOnce sampleHistory s := by
  let _ := Target.wasm32
  obtain ⟨hreceipt, hbounce, -⟩ := sampleHistory_accepts
  exact ⟨hreceipt, hbounce, payments_settle_once sampleHistoryRun⟩

end AvmSdk.Vesting
