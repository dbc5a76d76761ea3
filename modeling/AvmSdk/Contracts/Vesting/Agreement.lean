import AvmSdk.Contracts.Network
import AvmSdk.Contracts.Vesting.Payments
import AvmSdk.Contracts.Vesting.Receiver

/-!
# A vesting contract and its receivers

The accounts at the ends of the lanes are receivers: whatever the order of the messages, the contract
and the receivers agree on what was claimed and refunded.

* `streamAccounts`: the contract and its receivers as a network. `streamViews`: what the contract
  knows about one receiver.
* `streamViews_call`, `streamViews_answer`, `streamViews_manage`, `streamViews_deliver`: what the two
  contracts do for a lane. `streamViews_lawful`.
* `Agrees`, `vesting_receivers_agree`: every configuration that can be reached.
-/

namespace AvmSdk.Vesting

open Wire Sdk Contracts

section

variable [Target]

/-! ## The network -/

/-- An accepted binding names the account. -/
def BindsTo (account : AccountAddress) (x : MessageInput) : Prop :=
  (receiver.processMessage x).statusCode = 0 → x.message.methodId = Ids.bind →
    x.message.body = account.toBytes

/-- A callback is ordered in time, and an entry of SHELL that it carries is not empty. -/
structure Promise (f : Flight) (earlier : List InternalMessage) (message : InternalMessage) : Prop
    extends CreatedAfter f earlier message where
  fees : ∀ c ∈ message.extra.items, c.currencyId = shellCurrencyId → c.amount ≠ 0

/-- A vesting contract, and receivers at the ends of its lanes. -/
def streamAccounts (config : Config) (account : AccountAddress) : Accounts (ActiveLane config) where
  payer := vesting
  payerAddress := account
  receiver := receiver
  address p := config.account p.val
  Allowed := BindsTo account
  Promised := Promise

/-- What the contract stores about a lane. -/
structure View where
  /-- The lane. -/
  lane : Lane
  /-- What was paid over the lane and confirmed. -/
  paid : U128

/-- What a state says about a lane. -/
def State.view (s : State) (p : Fin maxStreams × Fin 2) : View :=
  ⟨(s.progress p.1).lanes p.2, (s.progress p.1).paid p.2⟩

/-- A payment over the lane is under way. -/
structure Paying (config : Config) (p : Fin maxStreams × Fin 2) (v : View) (f : Flight) : Prop where
  pending : v.lane.pending ≠ 0
  destination_eq : f.intent.destination = config.account p
  methodId_eq : f.intent.methodId = Ids.receive
  extra_eq : f.intent.extra = [⟨principalCurrencyId, v.lane.pending⟩]
  body_eq : f.intent.body = laneBody p v.lane.nonce v.lane.pending
  handler_eq : f.handler = some Ids.callback
  afterLt_eq : v.lane.afterLt = wordMax f.blockLt v.lane.lastLt

/-- The lane has seen no other callbacks than these. -/
structure SeenAmong (v : View) (cs : List InternalMessage) : Prop where
  lt_known : v.lane.lastLt = 0 ∨ ∃ c ∈ cs, c.createdLt = v.lane.lastLt
  hash_known : v.lane.lastHash = zeros 32 ∨
    ∃ c ∈ cs, ∃ h ∈ c.callback, h.causeMsgHash = v.lane.lastHash

/-- A receiver of a lane that is bound to the account or not bound yet, and what it received. -/
def Serves (account : AccountAddress) (p : Fin maxStreams × Fin 2) (b : Bytes) (v : ℕ) : Prop :=
  ∃ bound lastNonce total,
    ReceiverState b (BitVec.ofNat 8 p.2.val) (BitVec.ofNat 8 p.1.val) bound lastNonce total ∧
      (bound = zeroAddress ∨ bound = account) ∧ total.toNat = v

/-- The lanes of the contract. -/
def streamViews (config : Config) (account : AccountAddress) :
    Lanes (streamAccounts config account) State View where
  encode := State.encode
  Stored s := s.Valid ∧ s.config = config
  lane s p := s.view p.val
  Idle v := v.lane.pending = 0
  Open p := Paying config p.val
  settled v := v.paid.toNat
  Known := SeenAmong
  Ready p := Serves account p.val

variable {config : Config} {account : AccountAddress} {s t : State} {x : MessageInput}
  {p q : Fin maxStreams × Fin 2} {f : Flight} {view : View} {message : InternalMessage}
  {h : CallbackHeader} {earlier : List InternalMessage} {b : Bytes} {v : ℕ}

omit [Target] in
/-- The principal of a payment is the pending amount. -/
theorem Paying.amount_eq (hpaying : Paying config p view f) :
    f.amount = view.lane.pending.toNat := by
  unfold Flight.amount
  rw [hpaying.extra_eq, amountOf_cons, if_pos rfl, amountOf_nil, Nat.add_zero]

omit [Target] in
/-- A change of one lane shows in no other view. -/
theorem SameBut.view_eq (hsame : SameBut p s t) (hq : q ≠ p) : t.view q = s.view q := by
  unfold State.view
  rw [hsame.lanes _ _ hq, hsame.paid _ _ hq]

/-! ## The contract -/

/-- The contract as a transition of its machine. -/
theorem exists_move (hs : s.Valid) (hwf : x.WellFormed) (hstate : x.state = s.encode) :
    ∃ t, vestingMachine.Moves s ⟨x, vesting.processMessage x⟩ t ∧ t.Valid ∧
      (vesting.processMessage x).nextState x.state = t.encode :=
  vesting_implements.moves hs hstate ⟨hwf, rfl, rfl, rfl⟩

/-- **A message that is no callback** opens at most one lane. -/
theorem streamViews_call (hs : (streamViews config account).Stored s) (hwf : x.WellFormed)
    (hstate : x.state = s.encode) (hplain : ¬ x.message.isCallback) :
    ∃ t, (streamViews config account).Stored t ∧
      (vesting.processMessage x).nextState x.state = t.encode ∧
      (streamViews config account).Emits s t
        (flights x.context.blockLt (vesting.processMessage x)) := by
  obtain ⟨hvalid, rfl⟩ := hs
  obtain ⟨t, hmove, htvalid, hnext⟩ := exists_move hvalid hwf hstate
  rcases moves_cases hmove with ⟨o, hc⟩ | ⟨rfl, hc⟩
  · refine ⟨t, ⟨htvalid, hc.step.config_eq⟩, hnext, ?_⟩
    have hout : (vesting.processMessage x).outboundIntents = (o.map Transfer.intent).toList :=
      hc.outbound
    rw [flights_of_transfer hout hc.callbacks]
    have hstep : Act x (s.observed x.context.blockTime) t o := hc.step
    cases hstep with
    | topup ask => exact .nothing rfl
    | fund ask => exact .nothing rfl
    | status ask => exact .nothing rfl
    | @cancel _ i cap ask free ok =>
        apply Lanes.Emits.nothing
        funext r
        show ((s.observed x.context.blockTime).cancelled i cap).view r.val = s.view r.val
        unfold State.cancelled State.view
        by_cases hr : r.val.1 = i
        · rw [hr, State.withProgress_self]
          rfl
        · rw [State.withProgress_of_ne hr]
          rfl
    | @pay actor i k amount nonce ask free ok =>
        have hself : ((s.observed x.context.blockTime).locked i k amount nonce
            x.context.blockLt).view (i, k) =
              ⟨((s.progress i).lanes k).lock amount nonce x.context.blockLt,
                (s.progress i).paid k⟩ := by
          unfold State.locked State.view
          rw [State.withProgress_self, Progress.lanes_withLane, Progress.paid_withLane]
          rfl
        have hidle : (streamViews s.config account).Idle
            ((streamViews s.config account).lane s ⟨(i, k), ok.active⟩) := ok.idle
        refine .transfer hidle ?_ ?_ (fun cs hknown => ?_) fun r hr => ?_
        · show Paying s.config (i, k) (State.view _ (i, k)) _
          rw [hself]
          exact ⟨ok.some, rfl, rfl, rfl, rfl, rfl, rfl⟩
        · show (State.view _ (i, k)).paid.toNat = _
          rw [hself]
          rfl
        · show SeenAmong (State.view _ (i, k)) cs
          rw [hself]
          exact ⟨hknown.lt_known, hknown.hash_known⟩
        · have hframe : SameBut (i, k) s ((s.observed x.context.blockTime).locked i k amount nonce
              x.context.blockLt) := sameBut_withLane.of_observed
          exact hframe.view_eq fun heq => hr (Subtype.ext heq)
    | receipt ret => exact absurd ret.is_callback hplain
    | bounce ret => exact absurd ret.is_callback hplain
  · refine ⟨t, ⟨htvalid, rfl⟩, hnext, ?_⟩
    have hsilent : (vesting.processMessage x).outboundIntents = [] := hc.outbound
    have hnone : flights x.context.blockLt (vesting.processMessage x) = [] := by
      unfold flights
      rw [hsilent]
      rfl
    rw [hnone]
    exact .nothing rfl

/-- What the contract checks of a callback holds for the callback of a payment. -/
theorem callbackOk_of_answers (hi : config.Active p.1) (hconfig : s.config = config)
    (hwf : x.WellFormed) (hdestination : x.destination = account)
    (hmessage : x.message = .internal message) (hpaying : Paying config p (s.view p) f)
    (hknown : SeenAmong (s.view p) earlier)
    (hanswers : (streamAccounts config account).Answers f earlier message h) :
    Returns x message.source message h ∧ CallbackOk x s message.source message h p.1 p.2 := by
  obtain ⟨hreturns, hrequest⟩ := hanswers.returns hwf hmessage
  have hpromise : Promise f earlier message := hanswers.promised
  have hlater : ((s.progress p.1).lanes p.2).lastLt < message.createdLt :=
    hpromise.later_of_known hknown.lt_known
  have hafter : ((s.progress p.1).lanes p.2).afterLt < message.createdLt := by
    have heq : ((s.progress p.1).lanes p.2).afterLt =
        wordMax f.blockLt ((s.progress p.1).lanes p.2).lastLt := hpaying.afterLt_eq
    rw [heq]
    exact hpromise.after_of_known hknown.lt_known
  have hfresh : h.causeMsgHash ≠ ((s.progress p.1).lanes p.2).lastHash :=
    hanswers.hash_ne_of_known hknown.hash_known
  have hmethod : message.methodId = Ids.callback := hanswers.methodId_eq hpaying.handler_eq
  have hsource : (s.config.streams p.1).destination p.2 = message.source := by
    rw [hconfig, hanswers.source_eq, hpaying.destination_eq]
    rfl
  refine ⟨hreturns, ?_, hsource, hmethod, hrequest, hanswers.cause_eq.trans hdestination.symm,
    hanswers.hash_ne_zero, hpaying.pending, hafter, hlater, hfresh⟩
  rw [hconfig]
  exact hi

/-- The callback of a payment that arrived. -/
theorem receiptOk_of_reports (hpaying : Paying config p (s.view p) f)
    (hpromise : Promise f earlier message) (hreport : ReportsSuccess message h f.intent.body) :
    ReceiptOk s message h p.1 p.2 := by
  refine ⟨hreport.status_eq, fun c hc => ?_, hreport.body_eq.trans hpaying.body_eq⟩
  have hshell := hreport.currencies c hc
  exact ⟨hshell, hpromise.fees c hc hshell⟩

/-- The callback of a payment that came back. -/
theorem bounceOk_of_reports (hwf : message.extra.WellFormed)
    (hpaying : Paying config p (s.view p) f) (hpromise : Promise f earlier message)
    (hreport : ReportsFailure f message h) : BounceOk s message h p.1 p.2 := by
  have hamount : amountOf principalCurrencyId message.extra.items =
      ((s.progress p.1).lanes p.2).pending.toNat := hreport.amount_eq.trans hpaying.amount_eq
  have hpending : ((s.progress p.1).lanes p.2).pending ≠ 0 := hpaying.pending
  refine ⟨hreport.status_ne, ?_, fun c hc => ?_, hreport.body_eq⟩
  · by_contra hno
    push Not at hno
    rw [amountOf_eq_zero hno] at hamount
    exact hpending (BitVec.eq_of_toNat_eq hamount.symm)
  · rcases hreport.currencies c hc with hid | hshell
    · have hall := CurrencyAmounts.amountOf_of_mem hwf hc
      rw [hid, hamount] at hall
      exact .inl ⟨hid, BitVec.eq_of_toNat_eq hall.symm⟩
    · exact .inr ⟨hshell, hpromise.fees c hc hshell⟩

/-- **The callback of a payment** is accepted, and closes its lane. -/
theorem streamViews_answer {r : ActiveLane config} (hs : (streamViews config account).Stored s)
    (hwf : x.WellFormed) (hstate : x.state = s.encode) (hdestination : x.destination = account)
    (hmessage : x.message = .internal message) (hpaying : Paying config r.val (s.view r.val) f)
    (hknown : SeenAmong (s.view r.val) earlier)
    (hanswers : (streamAccounts config account).Answers f earlier message h)
    (hreport : ReportsSuccess message h f.intent.body ∨ ReportsFailure f message h) :
    (vesting.processMessage x).statusCode = 0 ∧
      flights x.context.blockLt (vesting.processMessage x) = [] ∧
      ∃ t, (streamViews config account).Stored t ∧
        (vesting.processMessage x).nextState x.state = t.encode ∧
        (streamViews config account).Answered r f earlier message h s t := by
  obtain ⟨hvalid, hconfig⟩ := hs
  obtain ⟨⟨i, k⟩, hi⟩ := r
  obtain ⟨ret, ok⟩ := callbackOk_of_answers (s := s.observed x.context.blockTime) hi hconfig hwf
    hdestination hmessage hpaying hknown hanswers
  have hfits := hvalid.paid_add_lt (by rw [hconfig]; exact hi) k
  -- the step that closes the lane with what is paid now
  have hfinish {paid : U128} (hpaid : paid.toNat = ((s.progress i).paid k).toNat +
        if h.statusCode = 0 then f.amount else 0)
      (hact : Act x (s.observed x.context.blockTime)
        ((s.observed x.context.blockTime).withProgress i ((s.progress i).withLane k paid
          (Lane.closed message.createdLt h.causeMsgHash)) s.nonce) none) :
      (vesting.processMessage x).statusCode = 0 ∧
        flights x.context.blockLt (vesting.processMessage x) = [] ∧
        ∃ t, (streamViews config account).Stored t ∧
          (vesting.processMessage x).nextState x.state = t.encode ∧
          (streamViews config account).Answered ⟨(i, k), hi⟩ f earlier message h s t := by
    have hstep : Step x s _ none := hact
    obtain ⟨e, he⟩ := processMessage_of_step hvalid hstate hstep
    have hframe : SameBut (i, k) s ((s.observed x.context.blockTime).withProgress i
        ((s.progress i).withLane k paid (Lane.closed message.createdLt h.causeMsgHash)) s.nonce) :=
      SameBut.of_observed sameBut_withLane
    have hself : State.view ((s.observed x.context.blockTime).withProgress i
        ((s.progress i).withLane k paid (Lane.closed message.createdLt h.causeMsgHash)) s.nonce)
          (i, k) = ⟨Lane.closed message.createdLt h.causeMsgHash, paid⟩ := by
      unfold State.view
      rw [State.withProgress_self, Progress.lanes_withLane, Progress.paid_withLane]
    rw [he]
    refine ⟨rfl, rfl, _, ⟨hstep.valid hvalid, hstep.config_eq.trans hconfig⟩, rfl, ?_, ?_, ?_, ?_⟩
    · show (State.view _ (i, k)).lane.pending = 0
      rw [hself]
      rfl
    · show (State.view _ (i, k)).paid.toNat = _
      rw [hself]
      exact hpaid
    · show SeenAmong (State.view _ (i, k)) _
      rw [hself]
      exact ⟨.inr ⟨message, List.mem_append_right _ List.mem_cons_self, rfl⟩,
        .inr ⟨message, List.mem_append_right _ List.mem_cons_self, h, hanswers.header, rfl⟩⟩
    · intro r hr
      exact .same (hframe.view_eq fun heq => hr (Subtype.ext heq))
  have hamount := hpaying.amount_eq
  rcases hreport with hsuccess | hfailure
  · have hact := Act.receipt ret ok (receiptOk_of_reports hpaying hanswers.promised hsuccess)
    refine hfinish ?_ hact
    rw [if_pos hsuccess.status_eq, hamount]
    exact BitVec.toNat_add_of_lt hfits
  · have hextra : message.extra.WellFormed := by
      have hextra := hwf.message_ok.extra_ok
      rw [hmessage] at hextra
      exact hextra
    have hact := Act.bounce ret ok (bounceOk_of_reports hextra hpaying hanswers.promised hfailure)
    refine hfinish ?_ hact
    rw [if_neg hfailure.status_ne]
    rfl

/-! ## The receivers -/

/-- **A message from someone else** leaves what a receiver has received. -/
theorem streamViews_manage (hserves : Serves account p x.state v)
    (hother : x.caller ≠ .internal account) (hbinds : BindsTo account x) :
    Serves account p ((receiver.processMessage x).nextState x.state) v := by
  obtain ⟨bound, lastNonce, total, hstate, hbound, rfl⟩ := hserves
  have hcases : receiver.processMessage x = orFailure (processReceiver x) := rfl
  unfold BindsTo at hbinds
  rw [hcases] at hbinds ⊢
  cases hresult : processReceiver x with
  | error e => exact ⟨bound, lastNonce, total, hstate, hbound, rfl⟩
  | ok out =>
      rw [hresult] at hbinds
      obtain ⟨hstatus, hcase⟩ := processReceiver_cases hstate hresult
      rcases hcase with ⟨source, message, hcaller, -, nonce, amount, hreceipt, -⟩ |
        ⟨bound', hbind, hnext⟩
      · -- a payment comes from the account, or from no account
        have hother := ne_bound_of_other hbound hcaller hother hreceipt.source_ne_zero.1
        exact absurd hreceipt.source_eq hother
      · exact ⟨bound', lastNonce, total, hnext x.state, bound_of_binds hbound (hbinds hstatus) hbind,
          rfl⟩

/-- **A delivered payment** is counted once, and its result repeats its body. -/
theorem streamViews_deliver (hserves : Serves account p x.state v) (hwf : x.WellFormed)
    (hmessage : x.message = .internal message) (hpaying : Paying config p view f)
    (hdelivers : Delivers account f message)
    (haccepted : (receiver.processMessage x).statusCode = 0) :
    Serves account p ((receiver.processMessage x).nextState x.state) (v + f.amount) ∧
      (receiver.processMessage x).callbackResultBody = f.intent.body := by
  obtain ⟨bound, lastNonce, total, hstate, hbound, rfl⟩ := hserves
  obtain ⟨out, hok, hout⟩ : ∃ out, processReceiver x = .ok out ∧ receiver.processMessage x = out :=
    exists_output_of_statusCode (raises_ne_zero (raises_processReceiver x)) haccepted
  have hcaller : x.caller = .internal message.source := by
    rw [hwf.caller_eq, hmessage]
    rfl
  have hmethod : message.methodId = Ids.receive := hdelivers.methodId_eq.trans hpaying.methodId_eq
  obtain ⟨nonce, amount, hreceipt, hnext⟩ := receipt_of_receive hstate hcaller hmessage hmethod hok
  have hbody := hreceipt.body_eq.symm.trans (hdelivers.body_eq.trans hpaying.body_eq)
  have hamount : amount = view.lane.pending := by
    have hread := congrArg bodyAmount hbody
    unfold laneBody at hread
    rwa [bodyAmount_paymentBody, bodyAmount_paymentBody] at hread
  rw [hout]
  refine ⟨⟨bound, nonce, total + amount, hnext x.state, hbound, ?_⟩, ?_⟩
  · rw [BitVec.toNat_add_of_lt hreceipt.fits, hpaying.amount_eq, hamount]
  · exact hreceipt.result_eq.trans hdelivers.body_eq

/-! ## Every schedule -/

/-- **The contract and the receivers** keep their lanes. -/
theorem streamViews_lawful (hconfig : config.Valid) : (streamViews config account).Lawful where
  address_injective := (streamLanes_lawful hconfig).destination_injective
  not_idle _ _ _ hopen := hopen.pending
  destination_eq _ _ _ hopen := hopen.destination_eq
  known_mono _ _ _ hsub hknown := by
    refine ⟨hknown.lt_known.imp id fun ⟨c, hc, hlt⟩ => ⟨c, hsub hc, hlt⟩, ?_⟩
    exact hknown.hash_known.imp id fun ⟨c, hc, hhash⟩ => ⟨c, hsub hc, hhash⟩
  call _ _ hs hwf hstate _ hplain := streamViews_call hs hwf hstate hplain
  answer _ _ _ _ _ _ _ hs hwf hstate hdestination hmessage hopen hknown hanswers hreport :=
    streamViews_answer hs hwf hstate hdestination hmessage hopen hknown hanswers hreport
  manage _ _ _ hready _ _ hother hallowed := streamViews_manage hready hother hallowed
  deliver _ _ _ _ _ _ hready hwf hmessage hopen hdelivers haccepted :=
    streamViews_deliver hready hwf hmessage hopen hdelivers haccepted

/-- An account that was deployed as the receiver of a lane, and that was used by others than the
contract since. -/
def Prepared (account : AccountAddress) (p : Fin maxStreams × Fin 2) (b : Bytes) : Prop :=
  ∃ start deploy calls, receiver.Runs start calls b ∧ start.deploy = .ok deploy ∧
    deploy.initData.getD 0 0 = BitVec.ofNat 8 p.2.val ∧
    deploy.initData.getD 1 0 = BitVec.ofNat 8 p.1.val ∧
    ∀ c ∈ calls, c.input.caller ≠ .internal account ∧ BindsTo account c.input

/-- A vesting contract after its deployment, with its receivers, and nothing on its way. -/
structure Opening (config : Config) (account : AccountAddress) (start : MessageInput)
    (n : Network (ActiveLane config)) : Prop where
  deployed : vesting.Starts start n.payer
  terms : Terms start config
  destination_eq : start.destination = account
  receivers : ∀ p : ActiveLane config, Prepared account p.val (n.receivers p)
  transfers : n.transfers = []
  callbacks : n.callbacks = []
  created : n.created = []

/-- **The contract and a receiver agree**: the receiver has received what was paid over its lane, and
what is pending if a callback on its way reports a success. One message between them is on its way if
something is pending, else none. -/
structure AgreesOn (config : Config) (account : AccountAddress) (n : Network (ActiveLane config))
    (s : State) (p : ActiveLane config) : Prop where
  total : ∃ total, received (n.receivers p) p.val.1.val = .ok total ∧
    total.toNat = ((s.progress p.val.1).paid p.val.2).toNat +
      if SuccessAmong ((streamAccounts config account).callbacksFrom p n.callbacks) then
        ((s.progress p.val.1).lanes p.val.2).pending.toNat else 0
  one : ((streamAccounts config account).transfersTo p n.transfers).length +
      ((streamAccounts config account).callbacksFrom p n.callbacks).length =
    if ((s.progress p.val.1).lanes p.val.2).pending = 0 then 0 else 1

/-- **The contract and the receivers agree**, and every callback on its way is accepted when it is
delivered. -/
structure Agrees (config : Config) (account : AccountAddress) (n : Network (ActiveLane config))
    (s : State) : Prop where
  lanes : ∀ p, AgreesOn config account n s p
  /-- Transfers go to the ends of lanes. -/
  transfers : ∀ f ∈ n.transfers, ∃ p : ActiveLane config,
    f.intent.destination = config.account p.val
  /-- Callbacks come from the ends of lanes. -/
  callbacks : ∀ m ∈ n.callbacks, ∃ p : ActiveLane config, m.source = config.account p.val
  /-- Callbacks are accepted. -/
  accepts : ∀ m ∈ n.callbacks, ∀ x : MessageInput, x.WellFormed → x.state = n.payer →
    x.destination = account → x.message = .internal m → (vesting.processMessage x).statusCode = 0

variable {n n' : Network (ActiveLane config)} {start : MessageInput}

/-- A receiver that is ready before the contract is deployed has received nothing. -/
theorem Prepared.serves (h : Prepared account p b) : Serves account p b 0 := by
  obtain ⟨start, deploy, calls, hrun, hdeploy, hkind, hindex, hcalls⟩ := h
  refine hrun.keeps (Serves account p · 0)
    (fun x => x.caller ≠ .internal account ∧ BindsTo account x) hcalls
    (fun b hstarts => ?_) fun x _ hmade hserves => streamViews_manage hserves hmade.1 hmade.2
  obtain ⟨-, hstatus, rfl⟩ := hstarts
  obtain ⟨out, hok, hout⟩ : ∃ out, initializeReceiver start = .ok out ∧ receiver.init start = out :=
    exists_output_of_statusCode (raises_ne_zero (raises_initializeReceiver start)) hstatus
  obtain ⟨deploy', hdeploy', hstate⟩ := initializeReceiver_ok hok
  rw [hdeploy, Except.ok.injEq] at hdeploy'
  rw [← hdeploy', hkind, hindex] at hstate
  rw [hout]
  exact ⟨zeroAddress, 0, 0, hstate start.state, .inl rfl, rfl⟩

/-- A contract after its deployment is coherent with its receivers. -/
theorem Opening.coherent (h : Opening config account start n) :
    config.Valid ∧ ∃ s, (streamViews config account).Coherent n s := by
  obtain ⟨hwf, hstatus, hpayer⟩ := h.deployed
  obtain ⟨s, hvalid, hdeployed, hnext⟩ := vesting_implements.init_ok start hwf hstatus
  have hconfig : s.config = config := (h.terms.unique hdeployed.config_eq).symm
  have hview (p : Fin maxStreams × Fin 2) : s.view p = ⟨Lane.default, 0⟩ := by
    rw [hdeployed.state_eq]
    unfold State.view Progress.paid
    split_ifs <;> rfl
  refine ⟨hconfig ▸ hvalid.config, s, .of_quiet ⟨hvalid, hconfig⟩ (hpayer.trans hnext) h.transfers
    h.callbacks fun p => ?_⟩
  show SeenAmong (s.view p.val) n.created ∧ (s.view p.val).lane.pending = 0 ∧
    Serves account p.val (n.receivers p) (s.view p.val).paid.toNat
  rw [hview]
  exact ⟨⟨.inl rfl, .inl rfl⟩, rfl, (h.receivers p).serves⟩

/-- A coherent network agrees. -/
theorem agrees_of_coherent (hconfig : config.Valid)
    (h : (streamViews config account).Coherent n s) : Agrees config account n s := by
  refine ⟨fun p => ?_, h.transfers, h.callbacks, fun m hm x hwf hstate hdestination hmessage => ?_⟩
  · obtain ⟨v, ⟨bound, lastNonce, total, hreceiver, -, htotal⟩, hphase⟩ := h.phase p
    obtain ⟨hv, hone⟩ := hphase.balance (s.view p.val).lane.pending.toNat
      (fun hidle => congrArg BitVec.toNat hidle)
      fun f hopen => ⟨hopen.amount_eq.symm, fun hzero => hopen.pending (BitVec.eq_of_toNat_eq hzero)⟩
    have hindex : (BitVec.ofNat 8 p.val.1.val).toNat = p.val.1.val := by
      have hlt : p.val.1.val < 8 := p.val.1.isLt
      rw [BitVec.toNat_ofNat, Nat.mod_eq_of_lt (by omega)]
    have hreceived := hreceiver.received_eq
    rw [hindex] at hreceived
    refine ⟨⟨total, hreceived, htotal.trans hv⟩, hone.trans ?_⟩
    simp only [← BitVec.toNat_inj]
    rfl
  · obtain ⟨pre, post, hcs⟩ := List.append_of_mem hm
    exact h.accepts (streamViews_lawful hconfig) hcs hwf hstate hdestination hmessage

/-- **A vesting contract and its receivers agree**, over any schedule. -/
theorem vesting_receivers_agree (hopening : Opening config account start n)
    (hreach : Relation.ReflTransGen (streamAccounts config account).Step n n') :
    ∃ s, State.decode n'.payer = .ok s ∧ Agrees config account n' s := by
  obtain ⟨hconfig, s, hcoherent⟩ := hopening.coherent
  obtain ⟨t, ht⟩ := (streamViews_lawful hconfig).coherent hreach hcoherent
  refine ⟨t, ?_, agrees_of_coherent hconfig ht⟩
  rw [ht.payer_eq]
  exact ht.stored.1.decode_encode

/-- **Every step of the contract** that is no callback is a step of the network. -/
theorem call_of_step {o : Option Transfer} (n : Network (ActiveLane config)) (hs : s.Valid)
    (hpayer : n.payer = s.encode) (hwf : x.WellFormed) (hstate : x.state = s.encode)
    (hdestination : x.destination = account) (hplain : ¬ x.message.isCallback)
    (hstep : Step x s t o) :
    (streamAccounts config account).Step n { n with
      payer := t.encode
      transfers := n.transfers ++
        (o.map fun transfer => Flight.mk transfer.intent (some transfer.handler)
          x.context.blockLt).toList } := by
  obtain ⟨e, he⟩ := processMessage_of_step hs hstate hstep
  exact Accounts.step_of_answer (a := streamAccounts config account) he hwf
    (hstate.trans hpayer.symm) hdestination hplain

/-! ### One stream -/

/-- The deployment of the receiver of a lane. -/
def sampleReceiverStart (p : ActiveLane sampleConfig) : MessageInput :=
  receiverDeployment ⟨0, 0, 0, zeros 32⟩ (sampleAddress 31).dappId (sampleConfig.account p.val)
    (BitVec.ofNat 8 p.val.2.val) (BitVec.ofNat 8 p.val.1.val)

/-- A fresh contract and fresh receivers. -/
def sampleNetwork : Network (ActiveLane sampleConfig) where
  payer := (State.new sampleConfig 50).encode
  receivers p := (receiver.init (sampleReceiverStart p)).nextState []
  transfers := []
  callbacks := []
  created := []

/-- The sample network starts from deployments. -/
theorem sampleNetwork_opening :
    Opening sampleConfig (sampleAccount 20) sampleStart sampleNetwork := by
  have hdeploy : sampleConfig.DeployableAt (sampleAccount 20) sampleStart.context.blockTime :=
    sampleConfig_deployable
  have hstart : vesting.Starts sampleStart sampleNetwork.payer := starts_deployment hdeploy
  have hterms : Terms sampleStart sampleConfig :=
    ⟨_, deploy_deployment, Config.decode_ok_iff.mpr ⟨rfl, sampleConfig_deployable.valid⟩⟩
  refine ⟨hstart, hterms, rfl, fun p => ?_, rfl, rfl, rfl⟩
  obtain ⟨⟨i, k⟩, hi⟩ := p
  obtain rfl : i = sampleIndex := active_sampleConfig hi
  have haddress : ∀ k, ¬ isZeroAddress (sampleConfig.account (sampleIndex, k)) := by decide
  have hkind : ∀ k : Fin 2, BitVec.ofNat 8 k.val ≤ 1 := by decide
  refine ⟨sampleReceiverStart ⟨(sampleIndex, k), hi⟩, _, [], .start ?_, deploy_receiverDeployment, rfl,
    rfl, fun c hc => absurd hc List.not_mem_nil⟩
  exact starts_receiver (by decide) (haddress k) (hkind k)
    (by decide : (BitVec.ofNat 8 sampleIndex.val).toNat < maxStreams)

/-- The contract and the receivers, while a payment is under way. -/
theorem sampleNetwork_reaches :
    ∃ n, Relation.ReflTransGen (streamAccounts sampleConfig (sampleAccount 20)).Step sampleNetwork n ∧
      n.payer = sampleClaimed.encode ∧ n.transfers.length = 1 := by
  have hnew := valid_new sampleConfig_deployable.valid 50
  have hfirst := call_of_step sampleNetwork hnew rfl sampleFund_wellFormed
    (state_signedInput _ _ _ _) rfl (fun hno => hno) step_sampleFund
  have hsecond := call_of_step
    { sampleNetwork with payer := sampleFunded.encode, transfers := [] } (step_sampleFund.valid hnew)
    rfl sampleClaim_wellFormed (state_signedInput _ _ _ _) rfl (fun hno => hno) step_sampleClaim
  exact ⟨_, (Relation.ReflTransGen.single hfirst).tail hsecond, rfl, rfl⟩

end

/-- A contract with the receivers of one stream, while a payment is under way. -/
theorem vesting_receivers_agree_sample :
    letI := Target.wasm32
    ∃ n s, n.transfers.length = 1 ∧ State.decode n.payer = .ok s ∧
      Agrees sampleConfig (sampleAccount 20) n s := by
  let _ := Target.wasm32
  obtain ⟨n, hreach, -, hone⟩ := sampleNetwork_reaches
  obtain ⟨s, hdecode, hagrees⟩ := vesting_receivers_agree sampleNetwork_opening hreach
  exact ⟨n, s, hone, hdecode, hagrees⟩

end AvmSdk.Vesting
