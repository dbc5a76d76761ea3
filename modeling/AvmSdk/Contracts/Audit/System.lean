import AvmSdk.Contracts.Audit.Reports
import AvmSdk.Contracts.Hub.Agreement
import AvmSdk.Contracts.Hub.Conservation

/-!
# The whole hub

A vault, its receivers and the ledger that audits them, under one schedule. The vault pays the
receivers, and they report to the ledger: what is on its way between the vault and a receiver is
delivered once, a report at any time, any number of times or never.

* `System`, `System.Step`: the configurations and the steps.
* `System.Step.payments`, `System.Step.reporting`: each step is one of the vault with its receivers, or
  none, and one of the receivers with their ledger, or none.
* `system_audited`: the chain from the ledger to the deposits, over any schedule.
-/

namespace AvmSdk.Audit

open Wire Sdk Contracts Hub Trace

section

variable [Target]

/-! ## Configurations -/

/-- A configuration: the states of the accounts, what the receivers have done, and the messages on
their way between them and the vault. -/
structure System where
  /-- The state of the vault. -/
  vault : Bytes
  /-- The state of the ledger. -/
  ledger : Bytes
  /-- The states of the receivers. -/
  receivers : Fin maxMembers → Bytes
  /-- The payments that they have taken, the latest last. -/
  receipts : Fin maxMembers → List Payment
  /-- The messages that they have emitted. -/
  reports : Fin maxMembers → List OutboundIntent
  /-- The transfers on their way. -/
  transfers : List Flight
  /-- The callbacks on their way. -/
  callbacks : List InternalMessage
  /-- All callbacks that were created so far. -/
  created : List InternalMessage

namespace System

/-- The vault with the receivers of its members. -/
def payments (config : Config) (n : System) : Network (Active config) where
  payer := n.vault
  receivers i := n.receivers i
  transfers := n.transfers
  callbacks := n.callbacks
  created := n.created

/-- The receivers with their ledger. -/
def reporting (n : System) : Reporting where
  ledger := n.ledger
  receivers := n.receivers
  receipts := n.receipts
  reports := n.reports

/-- A vault with nothing on its way, beside receivers with their ledger. -/
def quiet (vault : Bytes) (r : Reporting) : System where
  vault := vault
  ledger := r.ledger
  receivers := r.receivers
  receipts := r.receipts
  reports := r.reports
  transfers := []
  callbacks := []
  created := []

omit [Target] in
/-- The reporting part of a quiet system, -/
theorem reporting_quiet (vault : Bytes) (r : Reporting) : (quiet vault r).reporting = r := rfl

omit [Target] in
/-- its ledger, -/
theorem ledger_quiet (vault : Bytes) (r : Reporting) : (quiet vault r).ledger = r.ledger := rfl

omit [Target] in
/-- and its receivers. -/
theorem receivers_quiet (vault : Bytes) (r : Reporting) :
    (quiet vault r).receivers = r.receivers := rfl

/-- The configuration after a call of the vault. -/
def answered (n : System) (x : MessageInput) : System :=
  { n with
    vault := (revenueVault.processMessage x).nextState n.vault
    transfers := n.transfers ++ flights x.context.blockLt (revenueVault.processMessage x) }

/-- The configuration after a call of a receiver. -/
def called (n : System) (i : Fin maxMembers) (x : MessageInput) : System :=
  { n with
    receivers := (n.reporting.called i x).receivers
    receipts := (n.reporting.called i x).receipts
    reports := (n.reporting.called i x).reports }

/-- A call of a receiver leaves the ledger alone. -/
theorem ledger_called (n : System) (i : Fin maxMembers) (x : MessageInput) :
    (n.called i x).ledger = n.ledger := rfl

/-- The configuration after a frame for the ledger. -/
def served (n : System) (frame : Frame) (mode : StateOutputMode) : System :=
  { n with ledger := (n.reporting.served frame mode).ledger }

/-- **The steps of the hub.** The vault serves the accounts at the destinations of its
configuration; a receiver beyond them may belong to someone else. -/
inductive Step (config : Config) (vault : AccountAddress) (address : Fin maxMembers → AccountAddress)
    (n : System) : System → Prop
  /-- The vault gets a message that is no callback. -/
  | call {x : MessageInput} (wellFormed : x.WellFormed) (state_eq : x.state = n.vault)
      (destination_eq : x.destination = vault) (plain : ¬ x.message.isCallback) :
      Step config vault address n (n.answered x)
  /-- A receiver gets a message. If it is the receiver of a member, someone else sent it. -/
  | receiver {i : Fin maxMembers} {x : MessageInput} (wellFormed : x.WellFormed)
      (state_eq : x.state = n.receivers i) (destination_eq : x.destination = address i)
      (other : i.val < config.count.toNat → x.caller ≠ .internal vault ∧ BindsTo vault x) :
      Step config vault address n (n.called i x)
  /-- A transfer is delivered and accepted. -/
  | deliver {pre post : List Flight} {f : Flight} {i : Active config} {x : MessageInput}
      {message callback : InternalMessage} {h : CallbackHeader}
      (transfers_eq : n.transfers = pre ++ f :: post)
      (address_eq : f.intent.destination = (config.members i).destination)
      (wellFormed : x.WellFormed) (state_eq : x.state = n.receivers i)
      (message_eq : x.message = .internal message) (delivers : Delivers vault f message)
      (accepted : (payoutReceiver.processMessage x).statusCode = 0)
      (answers : (hubAccounts config vault).Answers f n.created callback h)
      (success : ReportsSuccess callback h (payoutReceiver.processMessage x).callbackResultBody) :
      Step config vault address n { n.called i x with
        transfers := pre ++ post
        callbacks := n.callbacks ++ [callback]
        created := n.created ++ [callback] }
  /-- A transfer fails, for any reason. -/
  | fail {pre post : List Flight} {f : Flight} {callback : InternalMessage} {h : CallbackHeader}
      (transfers_eq : n.transfers = pre ++ f :: post)
      (answers : (hubAccounts config vault).Answers f n.created callback h)
      (failure : ReportsFailure f callback h) :
      Step config vault address n { n with
        transfers := pre ++ post
        callbacks := n.callbacks ++ [callback]
        created := n.created ++ [callback] }
  /-- A callback is delivered. -/
  | answer {pre post : List InternalMessage} {callback : InternalMessage} {x : MessageInput}
      (callbacks_eq : n.callbacks = pre ++ callback :: post) (wellFormed : x.WellFormed)
      (state_eq : x.state = n.vault) (destination_eq : x.destination = vault)
      (message_eq : x.message = .internal callback) :
      Step config vault address n { n.answered x with callbacks := pre ++ post }
  /-- The ledger gets a message or a batch. -/
  | report {frame : Frame} {mode : StateOutputMode}
      (genuine : ∀ message ∈ frame.messages, n.reporting.Genuine address message)
      (wired : Wired address (n.served frame mode).ledger) :
      Step config vault address n (n.served frame mode)

/-! ## Two views -/

variable {config : Config} {vault : AccountAddress} {address : Fin maxMembers → AccountAddress}
  {n n' : System}

/-- A call of the receiver of a member. -/
theorem receivers_called (vault : AccountAddress) (n : System) (i : Active config)
    (x : MessageInput) : ((n.called i x).payments config).receivers =
      Function.update (n.payments config).receivers i
        (((hubAccounts config vault).receiver.processMessage x).nextState
          ((n.payments config).receivers i)) := by
  funext j
  show Function.update n.receivers i.val _ j.val = _
  by_cases hji : j = i
  · subst hji
    rw [Function.update_self, Function.update_self]
    rfl
  · rw [Function.update_of_ne hji, Function.update_of_ne fun heq => hji (Subtype.ext heq)]
    rfl

/-- A call of any other receiver. -/
theorem payments_called_idle {i : Fin maxMembers} (hi : ¬ i.val < config.count.toNat)
    (n : System) (x : MessageInput) : (n.called i x).payments config = n.payments config := by
  have hreceivers : ((n.called i x).payments config).receivers = (n.payments config).receivers := by
    funext j
    have hne : j.val ≠ i := fun heq => hi (heq ▸ j.property)
    exact Function.update_of_ne hne _ _
  exact congrArg (fun receivers => { n.payments config with receivers := receivers }) hreceivers

/-- **What the vault and its receivers see** of a step: one of their own steps, or nothing. -/
theorem Step.payments (haddress : ∀ i : Active config, address i = (config.members i).destination)
    (h : Step config vault address n n') :
    Relation.ReflGen (hubAccounts config vault).Step (n.payments config) (n'.payments config) := by
  cases h with
  | call wellFormed state_eq destination_eq plain =>
      exact .single (.call wellFormed state_eq destination_eq plain)
  | @receiver i x wellFormed state_eq destination_eq other =>
      by_cases hi : i.val < config.count.toNat
      · obtain ⟨hother, hbinds⟩ := other hi
        have hstep := Accounts.Step.manage (a := hubAccounts config vault) (n := n.payments config)
          (i := ⟨i, hi⟩) wellFormed state_eq (destination_eq.trans (haddress ⟨i, hi⟩)) hother hbinds
        rw [← receivers_called vault n ⟨i, hi⟩ x] at hstep
        exact .single hstep
      · rw [payments_called_idle hi]
  | @deliver pre post f i x message callback h transfers_eq address_eq wellFormed state_eq message_eq
      delivers accepted answers success =>
      have hstep := Accounts.Step.deliver (a := hubAccounts config vault) (n := n.payments config)
        transfers_eq address_eq wellFormed state_eq message_eq delivers accepted answers success
      rw [← receivers_called vault n i x] at hstep
      exact .single hstep
  | fail transfers_eq answers failure => exact .single (.fail transfers_eq answers failure)
  | answer callbacks_eq wellFormed state_eq destination_eq message_eq =>
      exact .single (.answer callbacks_eq wellFormed state_eq destination_eq message_eq)
  | report genuine wired => exact .refl

/-- **What the receivers and their ledger see** of a step: one of their own steps, or nothing. -/
theorem Step.reporting (h : Step config vault address n n') :
    Relation.ReflGen (Reporting.Step address) n.reporting n'.reporting := by
  cases h with
  | call => exact .refl
  | receiver wellFormed state_eq => exact .single (.receiver wellFormed state_eq)
  | deliver _ _ wellFormed state_eq => exact .single (.receiver wellFormed state_eq)
  | fail => exact .refl
  | answer => exact .refl
  | report genuine wired => exact .single (.ledger genuine wired)

/-! ## Every schedule -/

/-- A vault, its receivers and their ledger after their deployments, with nothing on its way. -/
structure Opening (config : Config) (vault : AccountAddress)
    (address : Fin maxMembers → AccountAddress) (start audit : MessageInput)
    (starts : Fin maxMembers → MessageInput) (n : System) : Prop where
  deployed : revenueVault.Starts start n.vault
  terms : Terms start config
  destination_eq : start.destination = vault
  reporting : n.reporting.Opening audit starts
  address_eq : ∀ i : Active config, address i = (config.members i).destination
  transfers : n.transfers = []
  callbacks : n.callbacks = []
  created : n.created = []

variable {start audit : MessageInput} {starts : Fin maxMembers → MessageInput} {s : State}
  {l : Ledger}

/-- The vault opens with its receivers. -/
theorem Opening.payments (h : Opening config vault address start audit starts n) :
    Hub.Opening config vault start (n.payments config) := by
  refine ⟨h.deployed, h.terms, h.destination_eq, fun i => ?_, h.transfers, h.callbacks, h.created⟩
  obtain ⟨deploy, hdeploy, hindex⟩ := h.reporting.index_eq i
  exact ⟨starts i, deploy, [], .start (h.reporting.receivers i), hdeploy, hindex,
    fun c hc => absurd hc List.not_mem_nil⟩

/-- **What holds in every configuration** that is reached: both views are coherent. -/
structure Coherent (config : Config) (vault : AccountAddress)
    (address : Fin maxMembers → AccountAddress) (n : System) (s : State) (l : Ledger) : Prop where
  payments : (hubLanes config vault).Coherent (n.payments config) s
  reporting : n.reporting.Coherent address l

/-- The configuration after the deployments. -/
theorem Opening.coherent (h : Opening config vault address start audit starts n) :
    config.Valid ∧ ∃ s l, Coherent config vault address n s l := by
  obtain ⟨hconfig, s, hs⟩ := h.payments.coherent
  have hledger : ∃ l, n.reporting.Coherent address l := h.reporting.coherent
  obtain ⟨l, hl⟩ := hledger
  exact ⟨hconfig, s, l, hs, hl⟩

/-- **A step** keeps the invariant. -/
theorem Coherent.step (hconfig : config.Valid)
    (haddress : ∀ i : Active config, address i = (config.members i).destination)
    (h : Coherent config vault address n s l) (hstep : Step config vault address n n') :
    ∃ s' l', Coherent config vault address n' s' l' := by
  obtain ⟨s', hs⟩ := (hubLanes_lawful hconfig).coherent (hstep.payments haddress).to_reflTransGen
    h.payments
  obtain ⟨l', hl⟩ := h.reporting.reaches hstep.reporting.to_reflTransGen
  exact ⟨s', l', hs, hl⟩

/-- **Every configuration** that is reached is coherent. -/
theorem Coherent.reaches (hconfig : config.Valid)
    (haddress : ∀ i : Active config, address i = (config.members i).destination)
    (h : Coherent config vault address n s l)
    (hreach : Relation.ReflTransGen (Step config vault address) n n') :
    ∃ s' l', Coherent config vault address n' s' l' := by
  induction hreach with
  | refl => exact ⟨s, l, h⟩
  | tail _ hstep ih =>
      obtain ⟨s', l', h'⟩ := ih
      exact h'.step hconfig haddress hstep

/-! ## From the ledger to the deposits -/

/-- **The record of a member is covered**: by its receiver, which has what was paid and perhaps what
is pending, and by the part of the member in all deposits, together with what it can still claim. -/
structure Covered (config : Config) (vault : AccountAddress) (n : System) (s : State) (r : Record)
    (i : Active config) : Prop where
  total : ∃ total, received (n.receivers i) = .ok total ∧ r.total ≤ total ∧
    total.toNat = (s.members i).paid.toNat +
      if SuccessAmong ((hubAccounts config vault).callbacksFrom i n.callbacks) then
        (s.members i).pending.toNat else 0
  /-- A record that is not behind is exact. -/
  count : ∃ count, wordAt eArgs 64 (n.receivers i) 192 = .ok count ∧ r.count ≤ count ∧
    (r.count = count → received (n.receivers i) = .ok r.total)
  part : r.total.toNat + (s.members i).claimable.toNat ≤
    s.received.toNat * (s.config.members i).weight.toNat / 10000

omit [Target] in
/-- A record with as many payments as its receiver has the same total. -/
theorem total_eq_of_count {r : Record} {total : U128} {count : U64} {receipts taken : List Payment}
    (htaken : taken.Sublist receipts) (htotal : total.toNat = totalOf receipts)
    (hcount : count.toNat = receipts.length) (hsum : r.total.toNat = totalOf taken)
    (hlength : r.count.toNat = taken.length) (heq : r.count = count) : r.total = total := by
  have hsame : taken = receipts := by
    refine htaken.eq_of_length ?_
    rw [← hlength, ← hcount, heq]
  apply BitVec.eq_of_toNat_eq
  rw [hsum, htotal, hsame]

/-- The chain of one member. -/
theorem Coherent.covered (hconfig : config.Valid) (h : Coherent config vault address n s l)
    (i : Active config) : Covered config vault n s (l.records i) i := by
  obtain ⟨⟨total, hreceived, htotal⟩, -⟩ := (agrees_of_coherent hconfig h.payments).members i
  change received (n.receivers i) = .ok total at hreceived
  obtain ⟨⟨total', hreceived', hle, hsum⟩, ⟨count, hcount, hcounted, hlength⟩, -, taken, htaken, -,
    htakenSum, htakenLength⟩ := h.reporting.backed i.val
  change received (n.receivers i) = .ok total' at hreceived'
  obtain rfl : total = total' := by
    rw [hreceived, Except.ok.injEq] at hreceived'
    exact hreceived'
  have hbalance := h.payments.stored.1.valid.balance i
  refine ⟨⟨total, hreceived, hle, htotal⟩, ⟨count, hcount, hcounted, fun heq => ?_⟩, ?_⟩
  · rw [total_eq_of_count htaken hsum hlength htakenSum htakenLength heq]
    exact hreceived
  · -- what the receiver has was paid or is pending
    have hpaid : total.toNat ≤ (s.members i).paid.toNat + (s.members i).pending.toNat := by
      rw [htotal]
      split_ifs <;> omega
    have hrecord := BitVec.le_def.mp hle
    show _ ≤ s.entitled i
    omega

/-- What is audited and what can still be claimed is not more than what was deposited. -/
theorem Coherent.sum_le (hconfig : config.Valid) (h : Coherent config vault address n s l) :
    ∑ i with i.val < config.count.toNat, ((l.records i).total.toNat + (s.members i).claimable.toNat) ≤
      s.received.toNat := by
  calc
    _ ≤ ∑ i with i.val < config.count.toNat, s.entitled i :=
        Finset.sum_le_sum fun i hi =>
          (h.covered hconfig ⟨i, (Finset.mem_filter.mp hi).2⟩).part
    _ ≤ ∑ i, s.entitled i := Finset.sum_le_sum_of_subset (Finset.filter_subset _ _)
    _ ≤ s.received.toNat := State.sum_entitled_le h.payments.stored.1.valid.config

end System

/-- **From the ledger to the deposits.** Under any schedule of the vault, its receivers and their
ledger, the record of every member is covered by what its receiver has, what the vault has paid and
what was deposited, and all records together by all deposits. -/
theorem system_audited {config : Config} {vault : AccountAddress}
    {address : Fin maxMembers → AccountAddress} {start audit : MessageInput}
    {starts : Fin maxMembers → MessageInput} {n n' : System}
    (hopening : n.Opening config vault address start audit starts)
    (hreach : Relation.ReflTransGen (System.Step config vault address) n n') :
    ∃ (s : State) (members : ℕ) (records : Fin maxMembers → Record),
      State.decode n'.vault = .ok s ∧ Legacy.layout.validate n'.ledger = .ok members ∧
      (∀ i : Fin maxMembers, i.val < members → Legacy.layout.record n'.ledger i = .ok (records i)) ∧
      (∀ i : Active config, n'.Covered config vault s (records i) i) ∧
      ∑ i with i.val < config.count.toNat,
        ((records i).total.toNat + (s.members i).claimable.toNat) ≤ s.received.toNat := by
  obtain ⟨hconfig, s₀, l₀, hcoherent⟩ := hopening.coherent
  obtain ⟨s, l, h⟩ := hcoherent.reaches hconfig hopening.address_eq hreach
  obtain ⟨hvalid, hstate⟩ := h.reporting.stored
  refine ⟨s, _, l.records, ?_, Legacy.reads.validate_iff.mpr ⟨l, hvalid, hstate, rfl⟩,
    fun i hi => ?_, h.covered hconfig, h.sum_le hconfig⟩
  · have hpayer : n'.vault = s.encode := h.payments.payer_eq
    rw [hpayer]
    exact h.payments.stored.1.decode_encode
  · have hrecord := Legacy.reads.lawful.record_eq hvalid hi
    rw [Ledger.slot_val, hstate] at hrecord
    exact hrecord

/-- **Every step of the vault** that is no callback is a step of the hub. -/
theorem System.call_of_step {config : Config} {vault : AccountAddress}
    {address : Fin maxMembers → AccountAddress} {s t : State} {x : MessageInput} {o : Option Transfer}
    (n : System) (hs : s.Stored) (hvault : n.vault = s.encode) (hwf : x.WellFormed)
    (hstate : x.state = s.encode) (hdestination : x.destination = vault)
    (hplain : ¬ x.message.isCallback) (hstep : Hub.Step x s t o) :
    System.Step config vault address n { n with
      vault := t.encode
      transfers := n.transfers ++
        (o.map fun transfer => Flight.mk transfer.intent (some transfer.handler)
          x.context.blockLt).toList } := by
  obtain ⟨e, he⟩ := processMessage_of_step hs hstate hstep
  have hcall : System.Step config vault address n (n.answered x) :=
    .call hwf (hstate.trans hvault.symm) hdestination hplain
  unfold System.answered at hcall
  rw [he, nextState_answer, flights_of_transfer (outboundIntents_answer _ _ _)
    (callbackIntents_answer _ _ _)] at hcall
  exact hcall

/-- A single message does to the configuration what it does to the ledger. -/
theorem Reporting.served_message {n : Reporting} {l : Ledger} (hl : Stores l n.ledger)
    {frame : Slice} {x : MessageInput} (decodes : decodeMessageInput frame.bytes = .ok x) :
    (n.served (.message frame x decodes) .fullReplace).ledger =
      Legacy.format.encode (l.answered x).2 := by
  obtain ⟨hvalid, hstate⟩ := hl
  unfold served
  rw [← hstate, Legacy.keeps.serve (.message frame x decodes) False.elim hvalid]
  rfl

/-- **A message for the ledger** is a step of the hub. -/
theorem System.step_message {config : Config} {vault : AccountAddress}
    {address : Fin maxMembers → AccountAddress} {n : System} {l : Ledger} (hl : Stores l n.ledger)
    {frame : Slice} {x : MessageInput} (decodes : decodeMessageInput frame.bytes = .ok x)
    (hgenuine : n.reporting.Genuine address x.message)
    (hwired : ∀ i, (l.answered x).2.sources i = zeroAddress ∨
      (l.answered x).2.sources i = address i) :
    System.Step config vault address n
      { n with ledger := Legacy.format.encode (l.answered x).2 } := by
  have hserved : (n.served (.message frame x decodes) .fullReplace).ledger =
      Legacy.format.encode (l.answered x).2 :=
    Reporting.served_message (n := n.reporting) hl decodes
  rw [← hserved]
  have hmessages : ∀ message ∈ (Frame.message frame x decodes).messages,
      n.reporting.Genuine address message := by
    intro message hmem
    rw [List.mem_singleton.mp hmem]
    exact hgenuine
  have hroutes : Wired address (n.served (.message frame x decodes) .fullReplace).ledger := by
    rw [hserved]
    exact (Reporting.wired_iff ⟨hl.1.answered x, rfl⟩).mpr hwired
  exact .report hmessages hroutes

end

/-! ## A deposit, all the way to the ledger -/

section

local instance : Target := Target.wasm32

/-- A vault, its receivers and their ledger after their deployments. -/
def sampleSystem : System := .quiet (State.new sampleConfig).encode sampleReporting

/-- The payment of the first member. -/
def sampleFlight : Flight :=
  ⟨(payment sampleFunded sampleMember 1 600).intent, some (payment sampleFunded sampleMember 1 600).handler, 2⟩

/-- The binding of its receiver to the vault. -/
def sampleVaultBinding : MessageInput :=
  sampleOrder (sampleReporting.receivers sampleMember) (sampleAddresses sampleMember) Ids.bind
    (sampleAccount 20).toBytes

/-- A message between the vault and the receiver. -/
def sampleMessage (flags : U8) (source destination : AccountAddress) (methodId createdLt : U64)
    (callback : Option CallbackHeader) (handler : Option U64) (extra : List CurrencyAmount)
    (body : Bytes) : InternalMessage :=
  InternalMessage.sent
    { flags := flags
      methodId := methodId
      fuelFeeShells := 1
      createdLt := createdLt
      createdAt := 0
      source := source
      destination := destination
      callback := callback
      callbackHandlerMethodId := handler
      eventReads := none
      extra := .ofEntries extra
      body := body
      canonicalBytes := [] }

/-- The payment on its way, -/
def samplePayment : InternalMessage :=
  sampleMessage internalFlagCallbackRequest (sampleAccount 20) (sampleAddresses sampleMember)
    Ids.receive 3 none (some Ids.callback) [⟨principalCurrencyId, 600⟩] (paymentBody 0 1 600)

/-- its callback, -/
def sampleConfirmation : InternalMessage :=
  sampleMessage internalFlagCallback (sampleAddresses sampleMember) (sampleAccount 20) Ids.callback 4
    (some ⟨sampleKey 9, sampleAccount 20, 0⟩) none [] (paymentBody 0 1 600)

/-- and the report of the receiver. -/
def sampleNotice : MessageInput :=
  sampleDelivery [] (sampleMessage 0 (sampleAddresses sampleMember) (sampleAccount 50)
    Ids.auditRecord 4 none none [] (paymentBody 0 1 600))

/-- The receiver is bound. -/
def sampleSystemBound : System := sampleSystem.called sampleMember sampleVaultBinding

/-- The delivery of the payment. -/
def samplePaymentInput : MessageInput :=
  sampleDelivery (sampleSystemBound.receivers sampleMember) samplePayment

/-- The hub while the payment is on its way, -/
def sampleSystemClaimed : System :=
  { sampleSystemBound with vault := sampleClaimed.encode, transfers := [sampleFlight] }

/-- and after its delivery. -/
def sampleSystemPaid : System :=
  { sampleSystemClaimed.called sampleMember samplePaymentInput with
    transfers := []
    callbacks := sampleSystemClaimed.callbacks ++ [sampleConfirmation]
    created := sampleSystemClaimed.created ++ [sampleConfirmation] }

/-- The ledger after the report. -/
def sampleNoticed : Ledger := (sampleBound.answered sampleNotice).2

/-- The sample system starts from deployments. -/
theorem sampleSystem_opening : sampleSystem.Opening sampleConfig (sampleAccount 20) sampleAddresses
    Hub.sampleStart sampleStart sampleStarts := by
  have hterms : Terms Hub.sampleStart sampleConfig :=
    ⟨_, deploy_deployment _, Config.decode_ok_iff.mpr ⟨rfl, sampleConfig_deployable.valid⟩⟩
  have hreporting : sampleSystem.reporting.Opening sampleStart sampleStarts := by
    unfold sampleSystem
    rw [System.reporting_quiet]
    exact sampleReporting_opening
  refine ⟨starts_deployment sampleConfig_deployable 0, hterms, rfl, hreporting, fun i => ?_, rfl, rfl,
    rfl⟩
  have hactive : ∀ i : Fin maxMembers, i.val < 2 →
      sampleAddresses i = (sampleConfig.members i).destination := by decide
  exact hactive i i.property

/-- The steps of this hub. -/
abbrev sampleStep : System → System → Prop :=
  System.Step sampleConfig (sampleAccount 20) sampleAddresses

/-- A deposit and a claim put a payment on its way. -/
theorem sampleSystem_claims (n : System) (hvault : n.vault = (State.new sampleConfig).encode)
    (htransfers : n.transfers = []) : Relation.ReflTransGen sampleStep n
      { n with vault := sampleClaimed.encode, transfers := [sampleFlight] } := by
  have hstored := stored_new sampleConfig_deployable.valid
  have hdeposit : sampleStep n _ := System.call_of_step n hstored hvault sampleDeposit_wellFormed
    (state_signedInput _ _ _ _) rfl (fun hno => hno) step_sampleDeposit
  rw [htransfers] at hdeposit
  have hclaim : sampleStep { n with vault := sampleFunded.encode, transfers := [] } _ :=
    System.call_of_step { n with vault := sampleFunded.encode, transfers := [] }
      (step_sampleDeposit.stored hstored) rfl sampleClaim_wellFormed (state_signedInput _ _ _ _) rfl
      (fun hno => hno) step_sampleClaim
  exact (Relation.ReflTransGen.single hdeposit).tail hclaim

/-- The delivery of the payment puts its callback on its way. -/
theorem sampleSystem_delivers (n : System) (hreceivers : n.receivers = sampleSystemBound.receivers)
    (htransfers : n.transfers = [sampleFlight]) (hcreated : n.created = []) :
    sampleStep n
      { n.called sampleMember samplePaymentInput with
        transfers := []
        callbacks := n.callbacks ++ [sampleConfirmation]
        created := n.created ++ [sampleConfirmation] } := by
  have hactive : sampleMember.val < sampleConfig.count.toNat := by decide
  have hto : sampleFlight.intent.destination = (sampleConfig.members sampleMember).destination := by
    decide
  have hwf : samplePaymentInput.WellFormed :=
    (exists_frame (by decide +kernel) (by decide +kernel)).1
  have hstate : samplePaymentInput.state = n.receivers sampleMember := by
    rw [hreceivers]
    exact state_internalInput _ _ _ _
  have hdelivers : Delivers (sampleAccount 20) sampleFlight samplePayment :=
    ⟨rfl, by decide, rfl, by decide, by decide +kernel, rfl, rfl⟩
  have haccepted : (payoutReceiver.processMessage samplePaymentInput).statusCode = 0 := by
    decide +kernel
  have hanswers : (hubAccounts sampleConfig (sampleAccount 20)).Answers sampleFlight n.created
      sampleConfirmation ⟨sampleKey 9, sampleAccount 20, 0⟩ := by
    rw [hcreated]
    exact ⟨⟨by decide, rfl, by decide, rfl, rfl, by decide, nofun⟩, ⟨by decide, nofun⟩⟩
  have hsuccess : ReportsSuccess sampleConfirmation ⟨sampleKey 9, sampleAccount 20, 0⟩
      (payoutReceiver.processMessage samplePaymentInput).callbackResultBody :=
    ⟨rfl, by decide +kernel, by decide +kernel⟩
  have hflight : n.transfers = [] ++ sampleFlight :: [] := htransfers
  exact System.Step.deliver (i := ⟨sampleMember, hactive⟩) (f := sampleFlight) (n := n) hflight hto
    hwf hstate rfl hdelivers haccepted hanswers hsuccess

/-- The report was emitted by the receiver when it took the payment. -/
theorem sampleNotice_genuine (r : Reporting)
    (h : r.reports = (sampleSystemClaimed.called sampleMember samplePaymentInput).reports) :
    r.Genuine sampleAddresses sampleNotice.message := by
  intro m hm _ i hi
  obtain rfl := CanonicalMessage.internal.inj hm
  have hmember : ∀ i, sampleAddresses sampleMember = sampleAddresses i → i = sampleMember := by
    decide +kernel
  obtain rfl := hmember i hi
  rw [h]
  have hreported : ∃ report ∈
      (sampleSystemClaimed.called sampleMember samplePaymentInput).reports sampleMember,
      report.methodId = Ids.auditRecord ∧ report.body = paymentBody 0 1 600 := by decide +kernel
  exact hreported

/-- The run: a claim, its payment, the report of it, and the confirmation on its way. -/
theorem sampleSystem_reaches : ∃ n, Relation.ReflTransGen sampleStep sampleSystem n ∧
      n.callbacks = [sampleConfirmation] ∧ Stores sampleNoticed n.ledger := by
  have hnew : Stores (Ledger.new (sampleKey 31) 1) sampleSystemPaid.ledger := by
    obtain ⟨owner, deploy, hcaller, hdeploy, hstores⟩ :=
      Reporting.stores_of_starts sampleReporting_opening.ledger
    have hdeploy' : sampleStart.deploy = .ok ⟨zeros 32, zeros 32, [], [], [1]⟩ :=
      deploy_signedInput rfl rfl (by decide)
    rw [hdeploy', Except.ok.injEq] at hdeploy
    obtain rfl : sampleKey 31 = owner := Caller.external.inj hcaller
    rw [← hdeploy] at hstores
    unfold sampleSystemPaid sampleSystemClaimed sampleSystemBound sampleSystem
    simp only [System.ledger_called, System.ledger_quiet]
    exact hstores
  -- the receiver is bound, and the vault gets a deposit and a claim
  have hstate : sampleVaultBinding.state = sampleSystem.receivers sampleMember := by
    unfold sampleSystem
    rw [System.receivers_quiet]
    exact state_signedInput _ _ _ _
  have hfirst : sampleStep sampleSystem sampleSystemBound :=
    .receiver (exists_frame (by decide +kernel) (by decide +kernel)).1 hstate rfl
      fun _ => ⟨nofun, fun _ _ => rfl⟩
  have hsecond : Relation.ReflTransGen sampleStep sampleSystemBound sampleSystemClaimed :=
    sampleSystem_claims sampleSystemBound rfl rfl
  -- the payment arrives
  have hthird : sampleStep sampleSystemClaimed sampleSystemPaid :=
    sampleSystem_delivers sampleSystemClaimed rfl rfl rfl
  -- the ledger gets the binding and the report
  obtain ⟨frame, hframe⟩ :=
    (exists_frame (x := sampleBinding) (by decide +kernel) (by decide +kernel)).2
  obtain ⟨frame', hframe'⟩ :=
    (exists_frame (x := sampleNotice) (by decide +kernel) (by decide +kernel)).2
  have hbound := hnew.1.answered sampleBinding
  have hfourth : sampleStep sampleSystemPaid _ :=
    System.step_message (l := Ledger.new (sampleKey 31) 1) (x := sampleBinding) hnew hframe
      (fun m hm => by cases hm) (by decide +kernel)
  have hfifth : sampleStep { sampleSystemPaid with ledger := Legacy.format.encode sampleBound } _ :=
    System.step_message (l := sampleBound) (x := sampleNotice) ⟨hbound, rfl⟩ hframe'
      (sampleNotice_genuine _ rfl) (by decide +kernel)
  have hreach := ((Relation.ReflTransGen.single hfirst).trans hsecond).tail hthird
  have hstores : Stores sampleNoticed (Legacy.format.encode sampleNoticed) :=
    ⟨hbound.answered sampleNotice, rfl⟩
  have hcallbacks : sampleSystemPaid.callbacks = [sampleConfirmation] := rfl
  exact ⟨_, (hreach.tail hfourth).tail hfifth, hcallbacks, hstores⟩

/-- A payment that was deposited, claimed, received and reported, while its callback is on its way. -/
theorem system_audited_sample : letI := Target.wasm32
    ∃ (n : System) (s : State) (r : Record) (i : Active sampleConfig),
      State.decode n.vault = .ok s ∧ Legacy.layout.record n.ledger i = .ok r ∧ r.total = 600 ∧
        n.Covered sampleConfig (sampleAccount 20) s r i := by
  obtain ⟨n, hreach, -, hstores⟩ := sampleSystem_reaches
  obtain ⟨s, members, records, hdecode, hmembers, hrecords, hcovered, -⟩ :=
    system_audited sampleSystem_opening hreach
  obtain ⟨l, hl, hstate, hcount⟩ := Legacy.reads.validate_iff.mp hmembers
  obtain rfl : l = sampleNoticed :=
    Legacy.reads.lawful.injective hl hstores.1 (hstate.trans hstores.2.symm)
  have hactive : sampleNoticed.Active sampleMember := by decide +kernel
  have hread := hrecords sampleMember (hactive.trans_eq hcount)
  have hrecord := Legacy.reads.lawful.record_eq hl hactive
  rw [Ledger.slot_val, hstate, hread, Except.ok.injEq] at hrecord
  have htold : sampleNoticed.records sampleMember = ⟨1, 600, 1⟩ := by decide +kernel
  have hmember : sampleMember.val < sampleConfig.count.toNat := by decide
  refine ⟨n, s, _, ⟨sampleMember, hmember⟩, hdecode, hread, ?_, hcovered ⟨sampleMember, hmember⟩⟩
  rw [hrecord, htold]

end

end AvmSdk.Audit
