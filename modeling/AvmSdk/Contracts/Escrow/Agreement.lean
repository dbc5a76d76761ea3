import AvmSdk.Contracts.Network
import AvmSdk.Contracts.Escrow.Conservation
import AvmSdk.Contracts.Escrow.Receiver

/-!
# An escrow and its receivers

The two accounts that an escrow can pay are receivers: whatever the order of the messages, the escrow
and the receivers agree on what was paid and refunded.

* `sideAccounts`: the escrow and its receivers as a network. `sideViews`: what the escrow knows about
  one receiver.
* `sideViews_call`, `sideViews_answer`, `sideViews_manage`, `sideViews_deliver`: what the two
  contracts do for a receiver. `sideViews_lawful`.
* `Agrees`, `escrow_receivers_agree`: every configuration that can be reached.
-/

namespace AvmSdk.Escrow

open Wire Sdk Contracts

/-- The accounts that an escrow can pay. -/
inductive Side
  /-- The account that payments go to. -/
  | payee
  /-- The account that refunds go to. -/
  | refundee
deriving DecidableEq

/-- The kind of the transfers to a side. -/
def Side.kind : Side → U8
  | .payee => 1
  | .refundee => 2

/-- The account of a side. -/
def Config.sideAccount (c : Config) (side : Side) : AccountAddress := c.recipient side.kind

/-- What the escrow stores about a side. -/
structure View where
  /-- The transfer to the side that is under way, if there is one. -/
  pending : Pending
  /-- What went to the side and was confirmed. -/
  settled : U128
  /-- The causes of all callbacks so far. -/
  receipts : List Bytes32

/-- What a state says about a side. -/
def State.view (s : State) (side : Side) : View where
  pending := if s.pending.kind = side.kind then s.pending else Pending.default
  settled := match side with
    | .payee => s.paid
    | .refundee => s.refunded
  receipts := s.receipts

section

variable [Target]

/-! ## The network -/

/-- An accepted binding names the account. -/
def BindsTo (account : AccountAddress) (x : MessageInput) : Prop :=
  (receiver.processMessage x).statusCode = 0 → x.message.methodId = Ids.bind →
    x.message.body = account.toBytes

/-- An escrow, and receivers at the accounts that it can pay. -/
def sideAccounts (config : Config) (account : AccountAddress) : Accounts Side where
  payer := escrow
  payerAddress := account
  receiver := receiver
  address := config.sideAccount
  Allowed := BindsTo account
  Promised _ _ _ := True

/-- A transfer to the side is under way. -/
structure Sending (config : Config) (side : Side) (v : View) (f : Flight) : Prop where
  kind_eq : v.pending.kind = side.kind
  amount_ne_zero : v.pending.amount ≠ 0
  intent_eq : f.intent = (transferOf config v.pending).intent
  handler_eq : f.handler = some Ids.callback

/-- The side has seen no other callbacks than these. -/
def SeenAmong (v : View) (cs : List InternalMessage) : Prop :=
  ∀ hash ∈ v.receipts, ∃ c ∈ cs, ∃ h ∈ c.callback, h.causeMsgHash = hash

/-- A receiver that is bound to the account or not bound yet, and what it received. -/
def Serves (account : AccountAddress) (b : Bytes) (v : ℕ) : Prop :=
  ∃ bound lastAttempt total, ReceiverState b bound lastAttempt total ∧
    (bound = zeroAddress ∨ bound = account) ∧ total.toNat = v

/-- The two sides of the escrow. -/
def sideViews (config : Config) (account : AccountAddress) :
    Lanes (sideAccounts config account) State View where
  encode := State.encode
  Stored s := s.Valid ∧ s.config = config
  lane := State.view
  Idle v := v.pending.kind = 0
  Open := Sending config
  settled v := v.settled.toNat
  Known := SeenAmong
  Ready _ := Serves account

variable {config : Config} {account : AccountAddress} {s t : State} {x : MessageInput}
  {side other : Side} {f : Flight} {view : View} {message : InternalMessage} {h : CallbackHeader}
  {earlier : List InternalMessage} {b : Bytes} {v : ℕ} {hash : Bytes32}

omit [Target] in
/-- The kind of a side is not that of an idle escrow. -/
theorem Side.kind_ne_zero (side : Side) : side.kind ≠ 0 := by cases side <;> decide

omit [Target] in
/-- The kind tells the sides apart. -/
theorem Side.kind_inj (h : side.kind = other.kind) : side = other := by
  cases side <;> cases other <;> first | rfl | exact absurd h (by decide)

omit [Target] in
/-- The two sides are two accounts. -/
theorem Config.Valid.sideAccount_injective (h : config.Valid) :
    Function.Injective config.sideAccount := by
  intro side other heq
  cases side <;> cases other
  · rfl
  · exact absurd heq h.payTo_ne_refundTo
  · exact absurd heq.symm h.payTo_ne_refundTo
  · rfl

omit [Target] in
/-- The side that a transfer is for sees it, -/
theorem State.pending_view_of_eq (hkind : s.pending.kind = side.kind) :
    (s.view side).pending = s.pending := if_pos hkind

omit [Target] in
/-- and the other one sees nothing pending. -/
theorem State.pending_view_of_ne (hkind : s.pending.kind ≠ side.kind) :
    (s.view side).pending = Pending.default := if_neg hkind

omit [Target] in
/-- A transfer to one side leaves the other one idle. -/
theorem State.idle_view_of_ne (hkind : s.pending.kind = side.kind) (hne : other ≠ side) :
    (s.view other).pending = Pending.default :=
  pending_view_of_ne fun hno => hne (Side.kind_inj (hno.symm.trans hkind))

omit [Target] in
/-- Nothing is under way. -/
theorem State.idle_view (hkind : s.pending.kind = 0) (side : Side) :
    (s.view side).pending = Pending.default :=
  pending_view_of_ne fun hno => side.kind_ne_zero (hno.symm.trans hkind)

omit [Target] in
/-- What is pending is not nothing. -/
theorem State.Valid.pending_amount_ne_zero (h : s.Valid) (hkind : s.pending.kind ≠ 0) :
    s.pending.amount ≠ 0 := by
  rcases h.pending.kind_cases.resolve_left hkind with hone | htwo
  · obtain ⟨hactive, hphase, hamount⟩ := h.pending.payment hone
    rw [hamount]
    exact h.config.amount_ne_zero _ (h.active_of_ne_open (by rw [hphase]; decide))
  · exact (h.pending.refund htwo).2.1

omit [Target] in
/-- The principal of a transfer is the pending amount. -/
theorem Sending.amount_eq (hsending : Sending config side view f) :
    f.amount = view.pending.amount.toNat := by
  have hextra : f.intent.extra = [⟨principalCurrencyId, view.pending.amount⟩] := by
    rw [hsending.intent_eq]
    rfl
  unfold Flight.amount
  rw [hextra, amountOf_cons, if_pos rfl, amountOf_nil, Nat.add_zero]

omit [Target] in
/-- A transfer goes to the account of its side. -/
theorem Sending.destination_eq (hsending : Sending config side view f) :
    f.intent.destination = config.sideAccount side := by
  rw [hsending.intent_eq, Config.sideAccount, ← hsending.kind_eq]
  rfl

omit [Target] in
/-- A transfer to a side is what the state has pending. -/
theorem Sending.pending_eq (hsending : Sending config side (s.view side) f) :
    s.pending.kind = side.kind ∧ (s.view side).pending = s.pending := by
  by_cases hkind : s.pending.kind = side.kind
  · exact ⟨hkind, State.pending_view_of_eq hkind⟩
  · have hnone := hsending.kind_eq
    rw [State.pending_view_of_ne hkind] at hnone
    exact absurd hnone.symm side.kind_ne_zero

/-! ## The escrow -/

/-- The escrow as a transition of its machine. -/
theorem exists_move (hs : s.Valid) (hwf : x.WellFormed) (hstate : x.state = s.encode) :
    ∃ t, escrowMachine.Moves s ⟨x, escrow.processMessage x⟩ t ∧ t.Valid ∧
      (escrow.processMessage x).nextState x.state = t.encode :=
  escrow_implements.moves hs hstate ⟨hwf, rfl, rfl, rfl⟩

/-- A transfer that is sent opens its side. -/
theorem emits_dispatched (side : Side) {index : U8} {amount : U128} {blockLt : U64} {n : U8}
    (hidle : s.pending.kind = 0) (hkind : side.kind = n)
    (ht : (s.dispatched n index amount).Valid) :
    (sideViews s.config account).Emits s (s.dispatched n index amount)
      [⟨(s.dispatched n index amount).transfer.intent, some Ids.callback, blockLt⟩] := by
  subst hkind
  have hself : ((s.dispatched side.kind index amount).view side).pending =
      (s.dispatched side.kind index amount).pending := State.pending_view_of_eq rfl
  have hview : (s.view side).pending.kind = 0 := by
    rw [State.idle_view hidle]
    rfl
  refine .transfer hview ?_ rfl (fun cs hknown => hknown) fun other hne => ?_
  · show Sending s.config side (State.view _ side) _
    refine ⟨?_, ?_, ?_, rfl⟩
    · rw [hself]
      rfl
    · rw [hself]
      exact ht.pending_amount_ne_zero side.kind_ne_zero
    · rw [hself]
      rfl
  · have hthis := State.idle_view hidle other
    have hother : ((s.dispatched side.kind index amount).view other).pending = Pending.default :=
      State.idle_view_of_ne rfl hne
    show State.view _ other = State.view s other
    unfold State.view at hother hthis ⊢
    dsimp only at hother hthis
    rw [hother, hthis]
    rfl

/-- **A message that is no callback** opens at most one side. -/
theorem sideViews_call (hs : (sideViews config account).Stored s) (hwf : x.WellFormed)
    (hstate : x.state = s.encode) (hplain : ¬ x.message.isCallback) :
    ∃ t, (sideViews config account).Stored t ∧
      (escrow.processMessage x).nextState x.state = t.encode ∧
      (sideViews config account).Emits s t
        (flights x.context.blockLt (escrow.processMessage x)) := by
  obtain ⟨hvalid, rfl⟩ := hs
  obtain ⟨t, hmove, htvalid, hnext⟩ := exists_move hvalid hwf hstate
  rcases moves_cases hmove with ⟨o, hc⟩ | ⟨rfl, hc⟩
  · refine ⟨t, ⟨htvalid, hc.step.config_eq⟩, hnext, ?_⟩
    have hout : (escrow.processMessage x).outboundIntents = (o.map Transfer.intent).toList :=
      hc.outbound
    rw [flights_of_transfer hout hc.callbacks]
    have hstep : Step x s t o := hc.step
    cases hstep with
    | status ask => exact .nothing rfl
    | topup ask => exact .nothing rfl
    | fund ask => exact .nothing rfl
    | submit ask => exact .nothing rfl
    | approve ask => exact .nothing rfl
    | pay ask ok => exact emits_dispatched .payee ok.idle rfl htvalid
    | refund ask ok => exact emits_dispatched .refundee ok.idle rfl htvalid
    | receipt ret => exact absurd ret.is_callback hplain
    | bounce ret => exact absurd ret.is_callback hplain
  · refine ⟨t, ⟨htvalid, rfl⟩, hnext, ?_⟩
    have hsilent : (escrow.processMessage x).outboundIntents = [] := hc.outbound
    have hnone : flights x.context.blockLt (escrow.processMessage x) = [] := by
      unfold flights
      rw [hsilent]
      rfl
    rw [hnone]
    exact .nothing rfl

/-- What the escrow checks of a callback holds for the callback of a transfer. -/
theorem callbackOk_of_answers (hconfig : s.config = config) (hwf : x.WellFormed)
    (hdestination : x.destination = account) (hmessage : x.message = .internal message)
    (hsending : Sending config side (s.view side) f) (hknown : SeenAmong (s.view side) earlier)
    (hanswers : (sideAccounts config account).Answers f earlier message h)
    (hcurrencies : ∀ c ∈ message.extra.items,
      c.currencyId = shellCurrencyId ∨ c.currencyId = principalCurrencyId) :
    Returns x message.source message h ∧ CallbackOk x s message.source message h := by
  obtain ⟨hreturns, hrequest⟩ := hanswers.returns hwf hmessage
  obtain ⟨hkind, -⟩ := hsending.pending_eq
  have hfresh : h.causeMsgHash ∉ s.receipts := by
    intro hmem
    obtain ⟨c, hc, h', hh', heq⟩ := hknown _ hmem
    exact hanswers.hash_fresh c hc h' hh' heq
  have hmethod : message.methodId = Ids.callback := hanswers.methodId_eq hsending.handler_eq
  have hsource : s.config.recipient s.pending.kind = message.source := by
    rw [hconfig, hanswers.source_eq, hsending.destination_eq, hkind]
    rfl
  refine ⟨hreturns, ?_, hmethod, hsource, hanswers.cause_eq.trans hdestination.symm,
    hanswers.hash_ne_zero, hfresh, hrequest, hcurrencies⟩
  rw [hkind]
  exact side.kind_ne_zero

/-- A callback that is taken closes the transfer of its side. -/
theorem answered_of_closed (hkind : s.pending.kind = side.kind)
    (hknown : SeenAmong (s.view side) earlier)
    (hheader : message.callback = some h) (hpending : t.pending = Pending.default)
    (hreceipts : t.receipts = s.receipts ++ [h.causeMsgHash])
    (hself : (t.view side).settled.toNat =
      (s.view side).settled.toNat + if h.statusCode = 0 then f.amount else 0)
    (hothers : ∀ other, other ≠ side → (t.view other).settled = (s.view other).settled) :
    (sideViews config account).Answered side f earlier message h s t := by
  have hidle (side : Side) : (t.view side).pending.kind = 0 := by
    rw [State.idle_view (by rw [hpending]; rfl)]
    rfl
  have hseen (other : Side) : SeenAmong (t.view other) (earlier ++ [message]) := by
    intro hash hmem
    have hcases : hash ∈ s.receipts ++ [h.causeMsgHash] := hreceipts ▸ hmem
    rcases List.mem_append.mp hcases with hold | hnew
    · obtain ⟨c, hc, hsame⟩ := hknown hash hold
      exact ⟨c, List.mem_append_left _ hc, hsame⟩
    · rw [List.mem_singleton.mp hnew]
      exact ⟨message, List.mem_append_right _ List.mem_cons_self, h, hheader, rfl⟩
  refine ⟨hidle side, hself, hseen side, fun other hne => .idle ?_ (hidle other) ?_ (hseen other)⟩
  · show (s.view other).pending.kind = 0
    rw [State.idle_view_of_ne hkind hne]
    rfl
  · exact congrArg BitVec.toNat (hothers other hne)

omit [Target] in
/-- A success is settled for its side. -/
theorem settled_view_self (hs : s.Valid) (hkind : s.pending.kind = side.kind) :
    ((s.settled hash).view side).settled.toNat =
      (s.view side).settled.toNat + s.pending.amount.toNat := by
  have hlt := s.funded.isLt
  have hle := hs.pending_le
  unfold State.settled
  cases side with
  | payee =>
      have hone : s.pending.kind = 1 := hkind
      have hfits : s.paid.toNat + s.pending.amount.toNat < 2 ^ 128 := by omega
      rw [if_pos hone]
      exact BitVec.toNat_add_of_lt hfits
  | refundee =>
      have hno : ¬ s.pending.kind = 1 := by
        rw [hkind]
        decide
      have hfits : s.refunded.toNat + s.pending.amount.toNat < 2 ^ 128 := by omega
      rw [if_neg hno]
      exact BitVec.toNat_add_of_lt hfits

omit [Target] in
/-- A success leaves what the other side got. -/
theorem settled_view_other (hkind : s.pending.kind = side.kind) (hne : other ≠ side) :
    ((s.settled hash).view other).settled = (s.view other).settled := by
  unfold State.settled
  split_ifs with hone
  · cases other with
    | payee =>
        have hsame : Side.payee.kind = side.kind := hone.symm.trans hkind
        exact absurd (Side.kind_inj hsame) hne
    | refundee => rfl
  · cases other with
    | payee => rfl
    | refundee =>
        cases side with
        | payee => exact absurd hkind hone
        | refundee => exact absurd rfl hne

/-- **The callback of a transfer** is accepted, and closes its side. -/
theorem sideViews_answer (hs : (sideViews config account).Stored s) (hwf : x.WellFormed)
    (hstate : x.state = s.encode) (hdestination : x.destination = account)
    (hmessage : x.message = .internal message) (hsending : Sending config side (s.view side) f)
    (hknown : SeenAmong (s.view side) earlier)
    (hanswers : (sideAccounts config account).Answers f earlier message h)
    (hreport : ReportsSuccess message h f.intent.body ∨ ReportsFailure f message h) :
    (escrow.processMessage x).statusCode = 0 ∧
      flights x.context.blockLt (escrow.processMessage x) = [] ∧
      ∃ t, (sideViews config account).Stored t ∧
        (escrow.processMessage x).nextState x.state = t.encode ∧
        (sideViews config account).Answered side f earlier message h s t := by
  obtain ⟨hvalid, hconfig⟩ := hs
  obtain ⟨hkind, hview⟩ := hsending.pending_eq
  have hamount : f.amount = s.pending.amount.toNat := by rw [hsending.amount_eq, hview]
  -- the step that closes the transfer
  have hfinish {t : State} (hstep : Step x s t none)
      (hanswered : (sideViews config account).Answered side f earlier message h s t) :
      (escrow.processMessage x).statusCode = 0 ∧
        flights x.context.blockLt (escrow.processMessage x) = [] ∧
        ∃ t, (sideViews config account).Stored t ∧
          (escrow.processMessage x).nextState x.state = t.encode ∧
          (sideViews config account).Answered side f earlier message h s t := by
    obtain ⟨e, he⟩ := processMessage_of_step hvalid hstate hstep
    rw [he]
    exact ⟨rfl, rfl, t, ⟨hstep.valid hvalid, hstep.config_eq.trans hconfig⟩, rfl, hanswered⟩
  rcases hreport with hsuccess | hfailure
  · obtain ⟨ret, ok⟩ := callbackOk_of_answers hconfig hwf hdestination hmessage hsending hknown
      hanswers fun c hc => .inl (hsuccess.currencies c hc)
    have hbody : message.body = paymentBody s.pending := by
      rw [hsuccess.body_eq, hsending.intent_eq, hview]
      rfl
    refine hfinish (Step.receipt ret ok ⟨hsuccess.status_eq, hsuccess.currencies, hbody⟩) ?_
    apply answered_of_closed hkind hknown hanswers.header
    · unfold State.settled
      split_ifs <;> rfl
    · unfold State.settled
      split_ifs <;> rfl
    · rw [if_pos hsuccess.status_eq, hamount]
      exact settled_view_self hvalid hkind
    · exact fun other hne => settled_view_other hkind hne
  · obtain ⟨ret, ok⟩ := callbackOk_of_answers hconfig hwf hdestination hmessage hsending hknown
      hanswers fun c hc => (hfailure.currencies c hc).symm
    have hvalue : principal message.extra = s.pending.amount := by
      have hextra : message.extra.WellFormed := by
        have hextra := hwf.message_ok.extra_ok
        rw [hmessage] at hextra
        exact hextra
      apply BitVec.eq_of_toNat_eq
      rw [← amountOf_principal hextra, ← hamount]
      exact hfailure.amount_eq
    refine hfinish (Step.bounce ret ok ⟨hfailure.status_ne, hvalue, hfailure.body_eq⟩) ?_
    apply answered_of_closed hkind hknown hanswers.header rfl rfl
    · rw [if_neg hfailure.status_ne]
      rfl
    · exact fun other hne => rfl

/-! ## The receivers -/

/-- **A message from someone else** leaves what a receiver has received. -/
theorem sideViews_manage (hserves : Serves account x.state v) (hwf : x.WellFormed)
    (hother : x.caller ≠ .internal account) (hbinds : BindsTo account x) :
    Serves account ((receiver.processMessage x).nextState x.state) v := by
  obtain ⟨bound, lastAttempt, total, hstate, hbound, rfl⟩ := hserves
  have hcases : receiver.processMessage x = orFailure (processReceiver x) := rfl
  unfold BindsTo at hbinds
  rw [hcases] at hbinds ⊢
  cases hresult : processReceiver x with
  | error e => exact ⟨bound, lastAttempt, total, hstate, hbound, rfl⟩
  | ok out =>
      rw [hresult] at hbinds
      obtain ⟨hstatus, hcase⟩ := processReceiver_cases hstate hresult
      rcases hcase with ⟨source, message, hcaller, hmessage, attempt, amount, hreceipt, -⟩ |
        ⟨bound', hbind, hnext⟩
      · -- a transfer comes from the account, or from the account that is all zero
        refine absurd hreceipt.source_eq (ne_bound_of_other hbound hcaller hother fun hzero => ?_)
        exact not_isZeroAddress_of_caller hwf hcaller hmessage (.inl hzero)
      · exact ⟨bound', lastAttempt, total, hnext x.state,
          bound_of_binds hbound (hbinds hstatus) hbind, rfl⟩

/-- **A delivered transfer** is counted once, and its result repeats its body. -/
theorem sideViews_deliver (hserves : Serves account x.state v) (hwf : x.WellFormed)
    (hmessage : x.message = .internal message) (hsending : Sending config side view f)
    (hdelivers : Delivers account f message)
    (haccepted : (receiver.processMessage x).statusCode = 0) :
    Serves account ((receiver.processMessage x).nextState x.state) (v + f.amount) ∧
      (receiver.processMessage x).callbackResultBody = f.intent.body := by
  obtain ⟨bound, lastAttempt, total, hstate, hbound, rfl⟩ := hserves
  obtain ⟨out, hok, hout⟩ : ∃ out, processReceiver x = .ok out ∧ receiver.processMessage x = out :=
    exists_output_of_statusCode (raises_ne_zero (raises_processReceiver x)) haccepted
  have hcaller : x.caller = .internal message.source := by
    rw [hwf.caller_eq, hmessage]
    rfl
  have hmethod : message.methodId = Ids.receive := by
    rw [hdelivers.methodId_eq, hsending.intent_eq]
    rfl
  obtain ⟨attempt, amount, hreceipt, hnext⟩ := receipt_of_receive hstate hcaller hmessage hmethod hok
  have hamount : amount = view.pending.amount := by
    have hbody : f.intent.body = paymentBody view.pending := by
      rw [hsending.intent_eq]
      rfl
    rw [hreceipt.amount_eq, hdelivers.body_eq, hbody, bodyAmount_paymentBody]
  rw [hout]
  refine ⟨⟨bound, attempt, total + amount, hnext x.state, hbound, ?_⟩, ?_⟩
  · rw [BitVec.toNat_add_of_lt hreceipt.fits, hsending.amount_eq, hamount]
  · exact hreceipt.result_eq.trans hdelivers.body_eq

/-! ## Every schedule -/

/-- **The escrow and the receivers** keep their sides. -/
theorem sideViews_lawful (hconfig : config.Valid) : (sideViews config account).Lawful where
  address_injective := hconfig.sideAccount_injective
  not_idle _ _ _ hopen := fun hno => Side.kind_ne_zero _ (hopen.kind_eq.symm.trans hno)
  destination_eq _ _ _ hopen := hopen.destination_eq
  known_mono _ _ _ hsub hknown := fun hash hmem =>
    let ⟨c, hc, hsame⟩ := hknown hash hmem
    ⟨c, hsub hc, hsame⟩
  call _ _ hs hwf hstate _ hplain := sideViews_call hs hwf hstate hplain
  answer _ _ _ _ _ _ _ hs hwf hstate hdestination hmessage hopen hknown hanswers hreport :=
    sideViews_answer hs hwf hstate hdestination hmessage hopen hknown hanswers hreport
  manage _ _ _ hready hwf _ hother hallowed := sideViews_manage hready hwf hother hallowed
  deliver _ _ _ _ _ _ hready hwf hmessage hopen hdelivers haccepted :=
    sideViews_deliver hready hwf hmessage hopen hdelivers haccepted

/-- An account that was deployed as a receiver, and that was used by others than the escrow since. -/
def Prepared (account : AccountAddress) (b : Bytes) : Prop :=
  ∃ start calls, receiver.Runs start calls b ∧
    ∀ c ∈ calls, c.input.caller ≠ .internal account ∧ BindsTo account c.input

/-- An escrow after its deployment, with its receivers, and nothing on its way. -/
structure Opening (config : Config) (account : AccountAddress) (start : MessageInput)
    (n : Network Side) : Prop where
  deployed : escrow.Starts start n.payer
  terms : Terms start config
  destination_eq : start.destination = account
  receivers : ∀ side, Prepared account (n.receivers side)
  transfers : n.transfers = []
  callbacks : n.callbacks = []
  created : n.created = []

/-- What is under way to a side. -/
def State.sentTo (s : State) (side : Side) : ℕ := (s.view side).pending.amount.toNat

/-- **The escrow and a receiver agree**: the receiver has received what was settled for its side, and
what is pending if a callback on its way reports a success. One message between them is on its way
while a transfer to the side is pending, else none. -/
structure AgreesOn (config : Config) (account : AccountAddress) (n : Network Side) (s : State)
    (side : Side) : Prop where
  total : ∃ total, received (n.receivers side) = .ok total ∧
    total.toNat = (s.view side).settled.toNat +
      if SuccessAmong ((sideAccounts config account).callbacksFrom side n.callbacks) then
        s.sentTo side else 0
  one : ((sideAccounts config account).transfersTo side n.transfers).length +
      ((sideAccounts config account).callbacksFrom side n.callbacks).length =
    if s.pending.kind = side.kind then 1 else 0

/-- **The escrow and the receivers agree**, and every callback on its way is accepted when it is
delivered. -/
structure Agrees (config : Config) (account : AccountAddress) (n : Network Side) (s : State) :
    Prop where
  sides : ∀ side, AgreesOn config account n s side
  /-- Transfers go to the two sides. -/
  transfers : ∀ f ∈ n.transfers, ∃ side, f.intent.destination = config.sideAccount side
  /-- Callbacks come from the two sides. -/
  callbacks : ∀ m ∈ n.callbacks, ∃ side, m.source = config.sideAccount side
  /-- Callbacks are accepted. -/
  accepts : ∀ m ∈ n.callbacks, ∀ x : MessageInput, x.WellFormed → x.state = n.payer →
    x.destination = account → x.message = .internal m → (escrow.processMessage x).statusCode = 0

variable {n n' : Network Side} {start : MessageInput}

/-- A receiver that is ready before the escrow is deployed has received nothing. -/
theorem Prepared.serves (h : Prepared account b) : Serves account b 0 := by
  obtain ⟨start, calls, hrun, hcalls⟩ := h
  refine hrun.keeps (Serves account · 0)
    (fun x => x.caller ≠ .internal account ∧ BindsTo account x) hcalls
    (fun b hstarts => ?_) fun x hwf hmade hserves => sideViews_manage hserves hwf hmade.1 hmade.2
  obtain ⟨-, hstatus, rfl⟩ := hstarts
  obtain ⟨out, hok, hout⟩ : ∃ out, initializeReceiver start = .ok out ∧ receiver.init start = out :=
    exists_output_of_statusCode (raises_ne_zero (raises_initializeReceiver start)) hstatus
  rw [hout]
  exact ⟨zeroAddress, 0, 0, initializeReceiver_ok hok start.state, .inl rfl, rfl⟩

/-- An escrow after its deployment is coherent with its receivers. -/
theorem Opening.coherent (h : Opening config account start n) :
    config.Valid ∧ ∃ s, (sideViews config account).Coherent n s := by
  obtain ⟨hwf, hstatus, hpayer⟩ := h.deployed
  obtain ⟨s, hvalid, hdeployed, hnext⟩ := escrow_implements.init_ok start hwf hstatus
  have hconfig : s.config = config := (h.terms.unique hdeployed.config_eq).symm
  have hview (side : Side) : s.view side = ⟨Pending.default, 0, []⟩ := by
    rw [hdeployed.state_eq]
    cases side <;> rfl
  refine ⟨hconfig ▸ hvalid.config, s, .of_quiet ⟨hvalid, hconfig⟩ (hpayer.trans hnext) h.transfers
    h.callbacks fun side => ?_⟩
  show SeenAmong (s.view side) n.created ∧ (s.view side).pending.kind = 0 ∧
    Serves account (n.receivers side) (s.view side).settled.toNat
  rw [hview]
  exact ⟨fun hash hmem => absurd hmem List.not_mem_nil, rfl, (h.receivers side).serves⟩

omit [Target] in
/-- A side has nothing under way exactly if the pending transfer is not for it. -/
theorem sentTo_eq_zero_iff (hs : s.Valid) : s.sentTo side = 0 ↔ s.pending.kind ≠ side.kind := by
  unfold State.sentTo
  constructor
  · intro hzero hkind
    rw [State.pending_view_of_eq hkind] at hzero
    refine hs.pending_amount_ne_zero ?_ (BitVec.eq_of_toNat_eq hzero)
    rw [hkind]
    exact side.kind_ne_zero
  · intro hkind
    rw [State.pending_view_of_ne hkind]
    rfl

/-- A coherent network agrees. -/
theorem agrees_of_coherent (hconfig : config.Valid) (h : (sideViews config account).Coherent n s) :
    Agrees config account n s := by
  refine ⟨fun side => ?_, h.transfers, h.callbacks, fun m hm x hwf hstate hdestination hmessage => ?_⟩
  · obtain ⟨v, ⟨bound, lastAttempt, total, hreceiver, -, htotal⟩, hphase⟩ := h.phase side
    have hidle (hkind : (s.view side).pending.kind = 0) : s.sentTo side = 0 := by
      rw [sentTo_eq_zero_iff h.stored.1]
      intro hno
      rw [State.pending_view_of_eq hno, hno] at hkind
      exact side.kind_ne_zero hkind
    have hopen (f : Flight) (hsending : Sending config side (s.view side) f) :
        s.sentTo side = f.amount ∧ s.sentTo side ≠ 0 :=
      ⟨hsending.amount_eq.symm, fun hzero => hsending.amount_ne_zero (BitVec.eq_of_toNat_eq hzero)⟩
    obtain ⟨hv, hone⟩ := hphase.balance (s.sentTo side) hidle hopen
    refine ⟨⟨total, hreceiver.received_eq, htotal.trans hv⟩, hone.trans ?_⟩
    simp only [sentTo_eq_zero_iff h.stored.1, ite_not]
  · obtain ⟨pre, post, hcs⟩ := List.append_of_mem hm
    exact h.accepts (sideViews_lawful hconfig) hcs hwf hstate hdestination hmessage

/-- **An escrow and its receivers agree**, over any schedule. -/
theorem escrow_receivers_agree (hopening : Opening config account start n)
    (hreach : Relation.ReflTransGen (sideAccounts config account).Step n n') :
    ∃ s, State.decode n'.payer = .ok s ∧ Agrees config account n' s := by
  obtain ⟨hconfig, s, hcoherent⟩ := hopening.coherent
  obtain ⟨t, ht⟩ := (sideViews_lawful hconfig).coherent hreach hcoherent
  refine ⟨t, ?_, agrees_of_coherent hconfig ht⟩
  rw [ht.payer_eq]
  exact ht.stored.1.decode_encode

/-- **Every step of the escrow** that is no callback is a step of the network. -/
theorem call_of_step {o : Option Transfer} (n : Network Side) (hs : s.Valid)
    (hpayer : n.payer = s.encode) (hwf : x.WellFormed) (hstate : x.state = s.encode)
    (hdestination : x.destination = account) (hplain : ¬ x.message.isCallback)
    (hstep : Step x s t o) :
    (sideAccounts config account).Step n { n with
      payer := t.encode
      transfers := n.transfers ++
        (o.map fun transfer => Flight.mk transfer.intent (some transfer.handler)
          x.context.blockLt).toList } := by
  obtain ⟨e, he⟩ := processMessage_of_step hs hstate hstep
  exact Accounts.step_of_answer (a := sideAccounts config account) he hwf
    (hstate.trans hpayer.symm) hdestination hplain

/-! ### Two milestones -/

/-- The deployment of the receiver of a side. -/
def sampleReceiverStart (side : Side) : MessageInput :=
  receiverDeployment ⟨0, 0, 0, zeros 32⟩ (sampleAddress 31).dappId (sampleConfig.sideAccount side)

/-- A fresh escrow and fresh receivers. -/
def sampleNetwork : Network Side where
  payer := (State.new sampleConfig).encode
  receivers side := (receiver.init (sampleReceiverStart side)).nextState []
  transfers := []
  callbacks := []
  created := []

/-- The sample network starts from deployments. -/
theorem sampleNetwork_opening : Opening sampleConfig (sampleAddress 20) sampleStart sampleNetwork := by
  have hdeploy : sampleConfig.DeployableAt (sampleAddress 20) sampleStart.context.blockTime :=
    sampleConfig_deployable
  have hstart : escrow.Starts sampleStart sampleNetwork.payer := starts_deployment hdeploy
  have hterms : Terms sampleStart sampleConfig :=
    ⟨_, deploy_deployment, Config.decode_ok_iff.mpr ⟨rfl, sampleConfig_deployable.valid⟩⟩
  have haddress : ∀ side, ¬ isZeroAddress (sampleConfig.sideAccount side) := by
    intro side
    cases side <;> decide
  refine ⟨hstart, hterms, rfl, fun side => ?_, rfl, rfl, rfl⟩
  refine ⟨sampleReceiverStart side, [], .start ?_, fun c hc => absurd hc List.not_mem_nil⟩
  exact starts_receiver (by decide) (haddress side)

/-- A signed call of the fresh escrow or of a later one. -/
theorem sampleNetwork_step {time : U32} {pubkey : Bytes32} {methodId : U64}
    {extra : List CurrencyAmount} {body : Bytes} {o : Option Transfer} (hs : s.Valid)
    (hwf : (sampleCall time s pubkey methodId extra body).WellFormed)
    (hstep : Step (sampleCall time s pubkey methodId extra body) s t o) :
    (sideAccounts sampleConfig (sampleAddress 20)).Step { sampleNetwork with payer := s.encode }
      { sampleNetwork with
        payer := t.encode
        transfers := (o.map fun transfer => Flight.mk transfer.intent (some transfer.handler)
          0).toList } :=
  call_of_step _ hs rfl hwf (state_signedInput _ _ _ _) rfl (fun hno => hno) hstep

/-- The escrow and the receivers, while a payment is under way. -/
theorem sampleNetwork_reaches :
    ∃ n, Relation.ReflTransGen (sideAccounts sampleConfig (sampleAddress 20)).Step sampleNetwork n ∧
      n.payer = samplePaid.encode ∧ n.transfers.length = 1 := by
  have hnew := valid_new sampleConfig_deployable.valid
  have hfunded := step_sampleFund.valid hnew
  have hsubmitted := step_sampleSubmit.valid hfunded
  have hfund := sampleNetwork_step hnew
    (sampleCall_wellFormed (by decide) (by decide) (by decide) (by decide)) step_sampleFund
  have hsubmit := sampleNetwork_step hfunded
    (sampleCall_wellFormed (by decide) (by decide) (by decide) (by decide)) step_sampleSubmit
  have happrove := sampleNetwork_step hsubmitted
    (sampleCall_wellFormed (by decide) (by decide) (by decide) (by decide)) step_sampleApprove
  have hpay := sampleNetwork_step (step_sampleApprove.valid hsubmitted)
    (sampleCall_wellFormed (by decide) (by decide) (by decide) (by decide)) step_samplePay
  exact ⟨_, (((Relation.ReflTransGen.single hfund).tail hsubmit).tail happrove).tail hpay, rfl, rfl⟩

end

/-- An escrow with its receivers, while a payment is under way. -/
theorem escrow_receivers_agree_sample :
    letI := Target.wasm32
    ∃ n s, n.transfers.length = 1 ∧ State.decode n.payer = .ok s ∧
      Agrees sampleConfig (sampleAddress 20) n s := by
  let _ := Target.wasm32
  obtain ⟨n, hreach, -, hone⟩ := sampleNetwork_reaches
  obtain ⟨s, hdecode, hagrees⟩ := escrow_receivers_agree sampleNetwork_opening hreach
  exact ⟨n, s, hone, hdecode, hagrees⟩

end AvmSdk.Escrow
