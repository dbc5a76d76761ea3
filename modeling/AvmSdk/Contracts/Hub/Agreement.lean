import AvmSdk.Contracts.Hub.Claims
import AvmSdk.Contracts.Hub.Receiver
import AvmSdk.Contracts.Network

/-!
# A vault and its receivers

The accounts of the members are receivers: whatever the order of the messages, the vault and the
receivers agree on what was paid.

* `hubAccounts`: the vault and its receivers as a network. `hubLanes`: what the vault knows about one
  receiver.
* `hubLanes_call`, `hubLanes_answer`, `hubLanes_manage`, `hubLanes_deliver`: what the two contracts
  do for a lane. `hubLanes_lawful`.
* `Agrees`, `vault_receivers_agree`: every configuration that can be reached.
-/

namespace AvmSdk.Hub

open Wire Sdk Contracts

section

variable [Target]

/-! ## The network -/

/-- An accepted binding names the vault. -/
def BindsTo (vault : AccountAddress) (x : MessageInput) : Prop :=
  (payoutReceiver.processMessage x).statusCode = 0 → x.message.methodId = Ids.bind →
    x.message.body = vault.toBytes

/-- A vault, and receivers at the addresses of its members. -/
def hubAccounts (config : Config) (vault : AccountAddress) : Accounts (Active config) where
  payer := revenueVault
  payerAddress := vault
  receiver := payoutReceiver
  address i := (config.members i).destination
  Allowed := BindsTo vault
  Promised := CreatedAfter

/-- The part of an account that does not depend on deposits. -/
def MemberState.lane (m : MemberState) : MemberState := { m with claimable := 0 }

/-- The payment of an account is under way. -/
structure Paying (config : Config) (i : Fin maxMembers) (m : MemberState) (f : Flight) : Prop where
  pending : m.pending ≠ 0
  destination_eq : f.intent.destination = (config.members i).destination
  methodId_eq : f.intent.methodId = Ids.receive
  extra_eq : f.intent.extra = [⟨principalCurrencyId, m.pending⟩]
  body_eq : f.intent.body = paymentBody (BitVec.ofNat 8 i.val) m.nonce m.pending
  handler_eq : f.handler = some Ids.callback
  afterLt_eq : m.afterLt = wordMax f.blockLt m.lastCallbackLt

/-- The account has seen no other callbacks than these. -/
structure SeenAmong (m : MemberState) (cs : List InternalMessage) : Prop where
  lt_known : m.lastCallbackLt = 0 ∨ ∃ c ∈ cs, c.createdLt = m.lastCallbackLt
  hash_known : m.lastCallbackHash = zeros 32 ∨
    ∃ c ∈ cs, ∃ h ∈ c.callback, h.causeMsgHash = m.lastCallbackHash

/-- A receiver with an index that is bound to the vault or not bound yet, and what it received. -/
def Serves (vault : AccountAddress) (i : Fin maxMembers) (b : Bytes) (v : ℕ) : Prop :=
  ∃ bound lastNonce total, ReceiverState b (BitVec.ofNat 8 i.val) bound lastNonce total ∧
    (bound = zeroAddress ∨ bound = vault) ∧ total.toNat = v

/-- The accounts of the members as lanes of the vault. -/
def hubLanes (config : Config) (vault : AccountAddress) :
    Lanes (hubAccounts config vault) State MemberState where
  encode := State.encode
  Stored s := s.Stored ∧ config.SameTerms s.config
  lane s i := (s.members i).lane
  Idle m := m.pending = 0
  Open i := Paying config i
  settled m := m.paid.toNat
  Known := SeenAmong
  Ready i := Serves vault i

variable {config : Config} {vault : AccountAddress} {s : State} {x : MessageInput}
  {i : Fin maxMembers} {f : Flight} {m : MemberState} {message : InternalMessage}
  {h : CallbackHeader} {earlier : List InternalMessage} {b : Bytes} {v : ℕ}

omit [Target] in
/-- The principal of a payment is the pending amount. -/
theorem Paying.amount_eq (hpaying : Paying config i m f) : f.amount = m.pending.toNat := by
  unfold Flight.amount
  rw [hpaying.extra_eq, amountOf_cons, if_pos rfl, amountOf_nil, Nat.add_zero]

/-! ## The vault -/

/-- The vault as a transition of its machine. -/
theorem exists_move (hs : s.Stored) (hwf : x.WellFormed) (hstate : x.state = s.encode) :
    ∃ t, vaultMachine.Moves s ⟨x, revenueVault.processMessage x⟩ t ∧ t.Stored ∧
      (revenueVault.processMessage x).nextState x.state = t.encode :=
  revenueVault_implements.moves hs hstate ⟨hwf, rfl, rfl, rfl⟩

/-- **A message that is no callback** opens at most one lane. -/
theorem hubLanes_call (hs : (hubLanes config vault).Stored s) (hwf : x.WellFormed)
    (hstate : x.state = s.encode) (hplain : ¬ x.message.isCallback) :
    ∃ t, (hubLanes config vault).Stored t ∧
      (revenueVault.processMessage x).nextState x.state = t.encode ∧
      (hubLanes config vault).Emits s t
        (flights x.context.blockLt (revenueVault.processMessage x)) := by
  obtain ⟨hstored, hsame⟩ := hs
  obtain ⟨t, hmove, htstored, hnext⟩ := exists_move hstored hwf hstate
  refine ⟨t, ⟨htstored, hsame.trans (moves_sameTerms hmove)⟩, hnext, ?_⟩
  rcases moves_claim_cases hsame hmove with ⟨i, nonce, hclaims⟩ | hno
  · -- a claim of member `i`
    obtain ⟨⟨fuel, hout⟩, hcallbacks⟩ := hclaims.pays
    have hflights : flights x.context.blockLt (revenueVault.processMessage x) =
        [⟨{ inputIndex := 0
            destination := (config.members i).destination
            fuelFeeShells := fuel
            extra := [⟨principalCurrencyId, (s.members i).claimable⟩]
            methodId := Ids.receive
            body := paymentBody (BitVec.ofNat 8 i.val) nonce (s.members i).claimable },
          some Ids.callback, x.context.blockLt⟩] := by
      dsimp only at hout hcallbacks
      unfold flights
      rw [hout, hcallbacks]
      rfl
    have hself : t.members i = State.lockMember (s.members i) nonce x.context.blockLt := by
      rw [hclaims.after]
      exact State.withMember_self
    have hstep := moves_member hstored hsame hmove hclaims.index_lt
    rw [hself] at hstep
    have hsome : (s.members i).claimable ≠ 0 := by
      generalize State.lockMember (s.members i) nonce x.context.blockLt = m at hstep
      cases hstep with
      | claimed _ _ _ some => exact some
      | receipt answer => exact absurd answer.1.2 hplain
      | bounce answer => exact absurd answer.1.2 hplain
      | other not_claim => exact absurd hclaims.claim not_claim
    have hidle : (hubLanes config vault).Idle
        ((hubLanes config vault).lane s ⟨i, hclaims.index_lt⟩) := hclaims.idle
    rw [hflights]
    refine .transfer hidle ?_ ?_ (fun cs hknown => ?_) fun j hji => ?_
    · show Paying config i (t.members i).lane _
      rw [hself]
      exact ⟨hsome, rfl, rfl, rfl, rfl, rfl, rfl⟩
    · show (t.members i).paid.toNat = (s.members i).paid.toNat
      rw [hself]
      rfl
    · show SeenAmong (t.members i).lane cs
      rw [hself]
      exact ⟨hknown.lt_known, hknown.hash_known⟩
    · show (t.members j).lane = (s.members j).lane
      have hne : j.val ≠ i := fun heq => hji (Subtype.ext heq)
      rw [hclaims.after, State.locked, State.withMember_of_ne hne]
  · -- no claim
    have hflights : flights x.context.blockLt (revenueVault.processMessage x) = [] := by
      have hsilent : (revenueVault.processMessage x).outboundIntents = [] := hno.silent
      unfold flights
      rw [hsilent]
      rfl
    rw [hflights]
    refine .nothing (funext fun j => ?_)
    show (t.members j).lane = (s.members j).lane
    have hstep := moves_member hstored hsame hmove j.property
    generalize t.members j = m at hstep
    cases hstep with
    | claimed claim => exact absurd claim.1 hno.not_claim
    | receipt answer => exact absurd answer.1.2 hplain
    | bounce answer => exact absurd answer.1.2 hplain
    | other => rfl

/-- What the vault checks of a callback holds for the callback of a payment. -/
theorem callbackOk_of_callbackOf (hsame : config.SameTerms s.config) (hwf : x.WellFormed)
    (hdestination : x.destination = vault) (hmessage : x.message = .internal message)
    (hi : i.val < config.count.toNat) (hpaying : Paying config i (s.members i).lane f)
    (hknown : SeenAmong (s.members i).lane earlier)
    (hanswers : (hubAccounts config vault).Answers f earlier message h)
    (hcurrencies : ∀ c ∈ message.extra.items,
      c.currencyId = principalCurrencyId ∨ c.currencyId = shellCurrencyId) :
    Returns x message.source message h ∧ CallbackOk x s message.source message h i := by
  obtain ⟨hreturns, hrequest⟩ := hanswers.returns hwf hmessage
  have hordered : CreatedAfter f earlier message := hanswers.promised
  have hlater : (s.members i).lastCallbackLt < message.createdLt :=
    hordered.later_of_known hknown.lt_known
  have hafter : (s.members i).afterLt < message.createdLt := by
    have heq : (s.members i).afterLt = wordMax f.blockLt (s.members i).lastCallbackLt :=
      hpaying.afterLt_eq
    rw [heq]
    exact hordered.after_of_known hknown.lt_known
  have hfresh : h.causeMsgHash ≠ (s.members i).lastCallbackHash :=
    hanswers.hash_ne_of_known hknown.hash_known
  have hmethod : message.methodId = Ids.callback := hanswers.methodId_eq hpaying.handler_eq
  refine ⟨hreturns, ?_⟩
  refine ⟨by rw [hsame.count]; exact hi, ?_, hpaying.pending, hmethod, ?_, hanswers.hash_ne_zero,
    hfresh, hafter, hlater, hrequest, hcurrencies⟩
  · rw [hsame.members, hanswers.source_eq, hpaying.destination_eq]
  · exact hanswers.cause_eq.trans hdestination.symm

/-- **The callback of a payment** is accepted, and closes its lane. -/
theorem hubLanes_answer {j : Active config} (hs : (hubLanes config vault).Stored s)
    (hwf : x.WellFormed) (hstate : x.state = s.encode) (hdestination : x.destination = vault)
    (hmessage : x.message = .internal message) (hpaying : Paying config j (s.members j).lane f)
    (hknown : SeenAmong (s.members j).lane earlier)
    (hanswers : (hubAccounts config vault).Answers f earlier message h)
    (hreport : ReportsSuccess message h f.intent.body ∨ ReportsFailure f message h) :
    (revenueVault.processMessage x).statusCode = 0 ∧
      flights x.context.blockLt (revenueVault.processMessage x) = [] ∧
      ∃ t, (hubLanes config vault).Stored t ∧
        (revenueVault.processMessage x).nextState x.state = t.encode ∧
        (hubLanes config vault).Answered j f earlier message h s t := by
  obtain ⟨hstored, hsame⟩ := hs
  have hindex : j.val.val < s.config.count.toNat := by
    rw [hsame.count]
    exact j.property
  -- the step that the callback makes
  have hfinish {t : State} (hstep : Step x s t none)
      (hanswered : (hubLanes config vault).Answered j f earlier message h s t) :
      (revenueVault.processMessage x).statusCode = 0 ∧
        flights x.context.blockLt (revenueVault.processMessage x) = [] ∧
        ∃ t, (hubLanes config vault).Stored t ∧
          (revenueVault.processMessage x).nextState x.state = t.encode ∧
          (hubLanes config vault).Answered j f earlier message h s t := by
    obtain ⟨e, he⟩ := processMessage_of_step hstored hstate hstep
    rw [he]
    exact ⟨rfl, rfl, t, ⟨hstep.stored hstored, hsame.trans hstep.sameTerms⟩, rfl, hanswered⟩
  have hmembers {m : MemberState} {paid : U128} {k : Active config} (hkj : k ≠ j) :
      ((s.withMember j m paid s.claimNonce).members k).lane = (s.members k).lane := by
    have hne : k.val ≠ j.val := fun heq => hkj (Subtype.ext heq)
    rw [State.withMember_of_ne hne]
  have hseen {m : MemberState} (hlt : m.lastCallbackLt = message.createdLt)
      (hhash : m.lastCallbackHash = h.causeMsgHash) : SeenAmong m (earlier ++ [message]) :=
    ⟨.inr ⟨message, List.mem_append_right _ List.mem_cons_self, hlt.symm⟩,
      .inr ⟨message, List.mem_append_right _ List.mem_cons_self, h, hanswers.header, hhash.symm⟩⟩
  rcases hreport with hsuccess | hfailure
  · obtain ⟨ret, ok⟩ := callbackOk_of_callbackOf hsame hwf hdestination hmessage j.property hpaying
      hknown hanswers fun c hc => .inr (hsuccess.currencies c hc)
    have harrived : ReceiptOk s message h j :=
      ⟨hsuccess.status_eq, hsuccess.currencies, hsuccess.body_eq.trans hpaying.body_eq⟩
    refine hfinish (.receipt ret ok harrived) ⟨?_, ?_, ?_, fun k hkj => .same (hmembers hkj)⟩
    · show ((s.withMember j _ _ _).members j).pending = 0
      rw [State.withMember_self]
      rfl
    · show ((s.withMember j _ _ _).members j).paid.toNat = (s.members j).paid.toNat + _
      rw [State.withMember_self, if_pos hsuccess.status_eq, hpaying.amount_eq]
      exact BitVec.toNat_add_of_lt (hstored.valid.paid_add_lt hindex)
    · show SeenAmong ((s.withMember j _ _ _).members j).lane _
      rw [State.withMember_self]
      exact hseen rfl rfl
  · obtain ⟨ret, ok⟩ := callbackOk_of_callbackOf hsame hwf hdestination hmessage j.property hpaying
      hknown hanswers hfailure.currencies
    have hextra : message.extra.WellFormed := by
      have hextra := hwf.message_ok.extra_ok
      rw [hmessage] at hextra
      exact hextra
    have hprincipal : principal message.extra = (s.members j).pending := by
      apply BitVec.eq_of_toNat_eq
      rw [← amountOf_principal hextra, hfailure.amount_eq, hpaying.amount_eq]
      rfl
    have hreturned : BounceOk s message h j := ⟨hfailure.status_ne, hprincipal, hfailure.body_eq⟩
    refine hfinish (.bounce ret ok hreturned) ⟨?_, ?_, ?_, fun k hkj => .same (hmembers hkj)⟩
    · show ((s.withMember j _ _ _).members j).pending = 0
      rw [State.withMember_self]
      rfl
    · show ((s.withMember j _ _ _).members j).paid.toNat = (s.members j).paid.toNat + _
      rw [State.withMember_self, if_neg hfailure.status_ne]
      rfl
    · show SeenAmong ((s.withMember j _ _ _).members j).lane _
      rw [State.withMember_self]
      exact hseen rfl rfl

/-! ## The receivers -/

/-- **A message from someone else** leaves what a receiver has received. -/
theorem hubLanes_manage (hserves : Serves vault i x.state v) (hwf : x.WellFormed)
    (hother : x.caller ≠ .internal vault) (hbinds : BindsTo vault x) :
    Serves vault i ((payoutReceiver.processMessage x).nextState x.state) v := by
  obtain ⟨bound, lastNonce, total, hstate, hbound, rfl⟩ := hserves
  have hcases : payoutReceiver.processMessage x = orFailure (processReceiver x) := rfl
  unfold BindsTo at hbinds
  rw [hcases] at hbinds ⊢
  cases hresult : processReceiver x with
  | error e => exact ⟨bound, lastNonce, total, hstate, hbound, rfl⟩
  | ok out =>
      rw [hresult] at hbinds
      have hstatus := statusCode_of_processReceiver hresult
      rcases processReceiver_cases hstate hresult with
        ⟨source, message, hcaller, hmessage, -, nonce, amount, hreceipt, -⟩ |
          ⟨-, -, bound', hbind, hnext⟩
      · -- a payment comes from the vault, or from no account
        refine absurd hreceipt.source_eq (ne_bound_of_other hbound hcaller hother fun hzero => ?_)
        exact not_isZeroAddress_of_caller hwf hcaller hmessage (.inl hzero)
      · exact ⟨bound', lastNonce, total, hnext x.state, bound_of_binds hbound (hbinds hstatus) hbind,
          rfl⟩

/-- **A delivered payment** is counted once, and its result repeats its body. -/
theorem hubLanes_deliver (hserves : Serves vault i x.state v) (hwf : x.WellFormed)
    (hmessage : x.message = .internal message) (hpaying : Paying config i m f)
    (hdelivers : Delivers vault f message)
    (haccepted : (payoutReceiver.processMessage x).statusCode = 0) :
    Serves vault i ((payoutReceiver.processMessage x).nextState x.state) (v + f.amount) ∧
      (payoutReceiver.processMessage x).callbackResultBody = f.intent.body := by
  obtain ⟨bound, lastNonce, total, hstate, hbound, rfl⟩ := hserves
  obtain ⟨out, hok, hout⟩ :
      ∃ out, processReceiver x = .ok out ∧ payoutReceiver.processMessage x = out :=
    exists_output_of_statusCode (raises_ne_zero (raises_processReceiver x)) haccepted
  have hcaller : x.caller = .internal message.source := by
    rw [hwf.caller_eq, hmessage]
    rfl
  have hmethod : message.methodId = Ids.receive := hdelivers.methodId_eq.trans hpaying.methodId_eq
  obtain ⟨nonce, amount, hreceipt, hnext⟩ := receipt_of_receive hstate hcaller hmessage hmethod hok
  have hbody := hreceipt.body_eq.symm.trans (hdelivers.body_eq.trans hpaying.body_eq)
  have hamount : amount = m.pending := by
    have hread := congrArg bodyAmount hbody
    rwa [bodyAmount_paymentBody, bodyAmount_paymentBody] at hread
  rw [hout]
  refine ⟨⟨bound, nonce, total + amount, hnext x.state, hbound, ?_⟩, ?_⟩
  · rw [BitVec.toNat_add_of_lt hreceipt.fits, hpaying.amount_eq, hamount]
  · exact hreceipt.result_eq.trans hdelivers.body_eq

/-! ## Every schedule -/

/-- **The vault and the receivers** keep their lanes. -/
theorem hubLanes_lawful (hconfig : config.Valid) : (hubLanes config vault).Lawful where
  address_injective i j heq := Subtype.ext (hconfig.destination_injective i.property j.property heq)
  not_idle _ _ _ hopen := hopen.pending
  destination_eq _ _ _ hopen := hopen.destination_eq
  known_mono _ _ _ hsub hknown := by
    refine ⟨hknown.lt_known.imp id fun ⟨c, hc, hlt⟩ => ⟨c, hsub hc, hlt⟩, ?_⟩
    exact hknown.hash_known.imp id fun ⟨c, hc, hhash⟩ => ⟨c, hsub hc, hhash⟩
  call _ _ hs hwf hstate _ hplain := hubLanes_call hs hwf hstate hplain
  answer _ _ _ _ _ _ _ hs hwf hstate hdestination hmessage hopen hknown hanswers hreport :=
    hubLanes_answer hs hwf hstate hdestination hmessage hopen hknown hanswers hreport
  manage _ _ _ hready hwf _ hother hallowed := hubLanes_manage hready hwf hother hallowed
  deliver _ _ _ _ _ _ hready hwf hmessage hopen hdelivers haccepted :=
    hubLanes_deliver hready hwf hmessage hopen hdelivers haccepted

/-- An account that was deployed as the receiver with an index, and that was used by others than the
vault since. -/
def Prepared (vault : AccountAddress) (i : Fin maxMembers) (b : Bytes) : Prop :=
  ∃ start deploy calls, payoutReceiver.Runs start calls b ∧ start.deploy = .ok deploy ∧
    deploy.initData.getD 64 0 = BitVec.ofNat 8 i.val ∧
    ∀ c ∈ calls, c.input.caller ≠ .internal vault ∧ BindsTo vault c.input

/-- A vault after its deployment, with its receivers, and nothing on its way. -/
structure Opening (config : Config) (vault : AccountAddress) (start : MessageInput)
    (n : Network (Active config)) : Prop where
  deployed : revenueVault.Starts start n.payer
  terms : Terms start config
  destination_eq : start.destination = vault
  receivers : ∀ i : Active config, Prepared vault i (n.receivers i)
  transfers : n.transfers = []
  callbacks : n.callbacks = []
  created : n.created = []

/-- **The vault and a receiver agree**: the receiver has received what was paid, and what is pending
if a callback on its way reports a success. One message between them is on its way if something is
pending, else none. -/
structure AgreesOn (config : Config) (vault : AccountAddress) (n : Network (Active config))
    (s : State) (i : Active config) : Prop where
  total : ∃ total, received (n.receivers i) = .ok total ∧
    total.toNat = (s.members i).paid.toNat +
      if SuccessAmong ((hubAccounts config vault).callbacksFrom i n.callbacks) then
        (s.members i).pending.toNat else 0
  one : ((hubAccounts config vault).transfersTo i n.transfers).length +
      ((hubAccounts config vault).callbacksFrom i n.callbacks).length =
    if (s.members i).pending = 0 then 0 else 1

/-- **The vault and the receivers agree**, and every callback on its way is accepted when it is
delivered. -/
structure Agrees (config : Config) (vault : AccountAddress) (n : Network (Active config))
    (s : State) : Prop where
  members : ∀ i, AgreesOn config vault n s i
  /-- Transfers go to members. -/
  transfers : ∀ f ∈ n.transfers, ∃ i : Active config,
    f.intent.destination = (config.members i).destination
  /-- Callbacks come from members. -/
  callbacks : ∀ m ∈ n.callbacks, ∃ i : Active config,
    m.source = (config.members i).destination
  /-- Callbacks are accepted. -/
  accepts : ∀ m ∈ n.callbacks, ∀ x : MessageInput, x.WellFormed → x.state = n.payer →
    x.destination = vault → x.message = .internal m → (revenueVault.processMessage x).statusCode = 0

variable {n n' : Network (Active config)} {start : MessageInput}

/-- A receiver that is ready before the vault is deployed has received nothing. -/
theorem Prepared.serves (h : Prepared vault i b) : Serves vault i b 0 := by
  obtain ⟨start, deploy, calls, hrun, hdeploy, hindex, hcalls⟩ := h
  refine hrun.keeps (Serves vault i · 0)
    (fun x => x.caller ≠ .internal vault ∧ BindsTo vault x) hcalls
    (fun b hstarts => ?_) fun x hwf hmade hserves => hubLanes_manage hserves hwf hmade.1 hmade.2
  obtain ⟨-, hstatus, rfl⟩ := hstarts
  obtain ⟨out, hok, hout⟩ :
      ∃ out, initializeReceiver start = .ok out ∧ payoutReceiver.init start = out :=
    exists_output_of_statusCode (raises_ne_zero (raises_initializeReceiver start)) hstatus
  obtain ⟨deploy', hdeploy', hstate⟩ := initializeReceiver_ok hok
  rw [hdeploy, Except.ok.injEq] at hdeploy'
  rw [← hdeploy', hindex] at hstate
  rw [hout]
  exact ⟨zeroAddress, 0, 0, (hstate start.state).1, .inl rfl, rfl⟩

/-- A vault after its deployment is coherent with its receivers. -/
theorem Opening.coherent (h : Opening config vault start n) :
    config.Valid ∧ ∃ s, (hubLanes config vault).Coherent n s := by
  obtain ⟨hwf, hstatus, hpayer⟩ := h.deployed
  obtain ⟨s, hstored, hdeployed, hnext⟩ := revenueVault_implements.init_ok start hwf hstatus
  have hconfig : config = s.config := h.terms.unique hdeployed.config_eq
  have hvalid : config.Valid := by
    rw [hconfig]
    exact hstored.valid.config
  have hsame : config.SameTerms s.config := by
    rw [hconfig]
    exact .refl _
  have hmember (i : Active config) : s.members i = MemberState.default := by
    rw [hdeployed.state_eq]
    rfl
  refine ⟨hvalid, s, .of_quiet ⟨hstored, hsame⟩ (hpayer.trans hnext) h.transfers h.callbacks
    fun i => ?_⟩
  show SeenAmong (s.members i).lane n.created ∧ (s.members i).lane.pending = 0 ∧
    Serves vault i (n.receivers i) (s.members i).paid.toNat
  rw [hmember]
  exact ⟨⟨.inl rfl, .inl rfl⟩, rfl, (h.receivers i).serves⟩

/-- A coherent network agrees. -/
theorem agrees_of_coherent (hconfig : config.Valid) (h : (hubLanes config vault).Coherent n s) :
    Agrees config vault n s := by
  refine ⟨fun i => ?_, h.transfers, h.callbacks, fun m hm x hwf hstate hdestination hmessage => ?_⟩
  · obtain ⟨v, ⟨bound, lastNonce, total, hreceiver, -, htotal⟩, hphase⟩ := h.phase i
    obtain ⟨hv, hone⟩ := hphase.balance (s.members i).pending.toNat
      (fun hidle => congrArg BitVec.toNat hidle)
      fun f hopen => ⟨hopen.amount_eq.symm, fun hzero => hopen.pending (BitVec.eq_of_toNat_eq hzero)⟩
    refine ⟨⟨total, hreceiver.received_eq, htotal.trans hv⟩, hone.trans ?_⟩
    simp only [← BitVec.toNat_inj]
    rfl
  · obtain ⟨pre, post, hcs⟩ := List.append_of_mem hm
    exact h.accepts (hubLanes_lawful hconfig) hcs hwf hstate hdestination hmessage

/-- **The vault and its receivers agree**, over any schedule. -/
theorem vault_receivers_agree (hopening : Opening config vault start n)
    (hreach : Relation.ReflTransGen (hubAccounts config vault).Step n n') :
    ∃ s, State.decode n'.payer = .ok s ∧ Agrees config vault n' s := by
  obtain ⟨hconfig, s, hcoherent⟩ := hopening.coherent
  obtain ⟨t, ht⟩ := (hubLanes_lawful hconfig).coherent hreach hcoherent
  refine ⟨t, ?_, agrees_of_coherent hconfig ht⟩
  rw [ht.payer_eq]
  exact ht.stored.1.decode_encode

/-- **Every step of the vault** that is no callback is a step of the network. -/
theorem call_of_step {t : State} {o : Option Transfer} (n : Network (Active config)) (hs : s.Stored)
    (hpayer : n.payer = s.encode) (hwf : x.WellFormed) (hstate : x.state = s.encode)
    (hdestination : x.destination = vault) (hplain : ¬ x.message.isCallback)
    (hstep : Step x s t o) :
    (hubAccounts config vault).Step n { n with
      payer := t.encode
      transfers := n.transfers ++
        (o.map fun transfer => Flight.mk transfer.intent (some transfer.handler)
          x.context.blockLt).toList } := by
  obtain ⟨e, he⟩ := processMessage_of_step hs hstate hstep
  exact Accounts.step_of_answer (a := hubAccounts config vault) he hwf
    (hstate.trans hpayer.symm) hdestination hplain

/-! ### Two members -/

/-- The deployment of the receiver of a member. -/
def sampleReceiverStart (i : Active sampleConfig) : MessageInput :=
  receiverDeployment ⟨0, 0, 0, zeros 32⟩ (sampleKey 31) (sampleConfig.members i).destination
    (sampleAccount 40) (BitVec.ofNat 8 i.val.val) 1

/-- A fresh vault and fresh receivers. -/
def sampleNetwork : Network (Active sampleConfig) where
  payer := (State.new sampleConfig).encode
  receivers i := (payoutReceiver.init (sampleReceiverStart i)).nextState []
  transfers := []
  callbacks := []
  created := []

/-- The sample network starts from deployments. -/
theorem sampleNetwork_opening :
    Opening sampleConfig (sampleAccount 20) sampleStart sampleNetwork := by
  have hstart : revenueVault.Starts sampleStart sampleNetwork.payer :=
    starts_deployment sampleConfig_deployable 0
  have hterms : Terms sampleStart sampleConfig :=
    ⟨_, deploy_deployment _, Config.decode_ok_iff.mpr ⟨rfl, sampleConfig_deployable.valid⟩⟩
  refine ⟨hstart, hterms, rfl, fun i => ?_, rfl, rfl, rfl⟩
  have hindex : (BitVec.ofNat 8 i.val.val).toNat < maxMembers := by
    have hlt : i.val.val < 16 := i.val.isLt
    rw [BitVec.toNat_ofNat, Nat.mod_eq_of_lt (by omega)]
    exact hlt
  have hmember : (sampleConfig.members i).destination = sampleAccount 21 ∨
      (sampleConfig.members i).destination = sampleAccount 22 := by
    have hlt : i.val.val < 2 := i.property
    have hcases : i.val.val = 0 ∨ i.val.val = 1 := by omega
    rcases hcases with h | h
    · exact .inl (by rw [Fin.ext h (b := (0 : Fin maxMembers))]; rfl)
    · exact .inr (by rw [Fin.ext h (b := (1 : Fin maxMembers))]; rfl)
  refine ⟨sampleReceiverStart i, _, [], .start ?_, deploy_receiverDeployment, ?_,
    fun c hc => absurd hc List.not_mem_nil⟩
  · refine starts_receiver (by decide) ?_ (by decide) ?_ ?_ hindex (by decide)
    · rcases hmember with h | h <;> rw [h] <;> decide
    · rcases hmember with h | h <;> rw [h] <;> decide
    · rcases hmember with h | h <;> rw [h] <;> rfl
  · exact getD_receiverInitData

/-- The vault and the receivers, while a payment is under way. -/
theorem sampleNetwork_reaches :
    ∃ n, Relation.ReflTransGen (hubAccounts sampleConfig (sampleAccount 20)).Step sampleNetwork n ∧
      n.payer = sampleClaimed.encode ∧ n.transfers.length = 1 := by
  have hnew := stored_new sampleConfig_deployable.valid
  have hfirst := call_of_step sampleNetwork hnew rfl sampleDeposit_wellFormed
    (state_signedInput _ _ _ _) rfl (fun hno => hno) step_sampleDeposit
  have hsecond := call_of_step
    { sampleNetwork with payer := sampleFunded.encode, transfers := [] }
    (step_sampleDeposit.stored hnew) rfl sampleClaim_wellFormed (state_signedInput _ _ _ _) rfl
    (fun hno => hno) step_sampleClaim
  exact ⟨_, (Relation.ReflTransGen.single hfirst).tail hsecond, rfl, rfl⟩

end

/-- A vault with two receivers, while a payment is under way. -/
theorem vault_receivers_agree_sample :
    letI := Target.wasm32
    ∃ n s, n.transfers.length = 1 ∧ State.decode n.payer = .ok s ∧
      Agrees sampleConfig (sampleAccount 20) n s := by
  let _ := Target.wasm32
  obtain ⟨n, hreach, -, hone⟩ := sampleNetwork_reaches
  obtain ⟨s, hdecode, hagrees⟩ := vault_receivers_agree sampleNetwork_opening hreach
  exact ⟨n, s, hone, hdecode, hagrees⟩

end AvmSdk.Hub
