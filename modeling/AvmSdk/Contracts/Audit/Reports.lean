import AvmSdk.Contracts.Audit.Batch
import AvmSdk.Contracts.Hub.Deployment
import AvmSdk.Contracts.Hub.Receiver
import AvmSdk.Sdk.Output.Gate
import AvmSdk.Trace.Ascending
import Mathlib.Logic.Relation

/-!
# What the receivers report

An audit ledger and the receivers that report to it. A receiver reports every payment that it takes.
A report comes to the ledger at any time, any number of times, or never, by itself or in a batch;
the ledger takes the reports of a source with ascending nonces.

* `Kept`: a receiver has counted its payments, and its reports tell of them. `Kept.call`.
* `Recorded`: a record counts some of the payments of a receiver. `Recorded.add`.
* `Reporting`, `Reporting.Step`: the configurations and the steps. `Reporting.Coherent`: what holds
  in all configurations that are reached.
* `records_backed`: the ledger never overstates what was received.
-/

namespace AvmSdk.Audit

open Wire Sdk Contracts Hub Trace

/-- A payment that a receiver has taken. -/
structure Payment where
  /-- The nonce that it was sent with. -/
  nonce : U64
  /-- The amount that was received. -/
  amount : U128
deriving DecidableEq

/-- The nonces as numbers. -/
def Payment.key (p : Payment) : ℕ := p.nonce.toNat

/-- The sum of payments. -/
def totalOf (payments : List Payment) : ℕ := (payments.map fun p => p.amount.toNat).sum

/-- The total of two lists of payments, -/
theorem totalOf_append (payments more : List Payment) :
    totalOf (payments ++ more) = totalOf payments + totalOf more := by
  simp [totalOf]

/-- that of one payment, -/
theorem totalOf_singleton (p : Payment) : totalOf [p] = p.amount.toNat := by
  simp [totalOf]

/-- and that of some of the payments, which is no more. -/
theorem totalOf_le {taken payments : List Payment} (h : taken.Sublist payments) :
    totalOf taken ≤ totalOf payments :=
  (h.map fun p : Payment => p.amount.toNat).sum_le_sum fun _ _ => Nat.zero_le _

section

variable [Target]

/-- The payments that a receiver takes by a call: one, if it accepts a payment. Its amount is the
principal that came with the message. -/
def receiptsOf (x : MessageInput) : List Payment :=
  if x.message.methodId = Ids.receive ∧ (payoutReceiver.processMessage x).statusCode = 0 then
    [⟨bodyNonce x.message.body, principal x.message.extra⟩]
  else []

/-! ## Receivers -/

/-- **A receiver has counted its payments**, in the order of their nonces, and all its reports tell
of one of them. -/
structure Kept (i : Fin maxMembers) (b : Bytes) (bound : AccountAddress) (lastNonce : U64)
    (total : U128) (count : U64) (receipts : List Payment) (reports : List OutboundIntent) :
    Prop where
  state : ReceiverState b (BitVec.ofNat 8 i.val) bound lastNonce total
  count_at : b.extract 192 200 = toLe count
  total_eq : total.toNat = totalOf receipts
  count_eq : count.toNat = receipts.length
  ascends : Ascends Payment.key receipts
  le_last : ∀ p ∈ receipts, p.key ≤ lastNonce.toNat
  reported : ∀ report ∈ reports, ∃ p ∈ receipts,
    report.body = paymentBody (BitVec.ofNat 8 i.val) p.nonce p.amount

/-- A receiver in any of these states. -/
def Keeping (i : Fin maxMembers) (b : Bytes) (receipts : List Payment)
    (reports : List OutboundIntent) : Prop :=
  ∃ bound lastNonce total count, Kept i b bound lastNonce total count receipts reports

variable {i : Fin maxMembers} {b : Bytes} {bound : AccountAddress} {lastNonce : U64} {total : U128}
  {count : U64} {receipts : List Payment} {reports : List OutboundIntent} {x : MessageInput}
  {out : MessageOutput}

/-- A fresh receiver has taken nothing. -/
theorem keeping_of_starts {start : MessageInput} (h : payoutReceiver.Starts start b)
    {deploy : DeployInput} (hdeploy : start.deploy = .ok deploy)
    (hindex : deploy.initData.getD 64 0 = BitVec.ofNat 8 i.val) : Keeping i b [] [] := by
  obtain ⟨-, hstatus, rfl⟩ := h
  obtain ⟨out, hok⟩ :=
    exists_ok_of_statusCode (raises_ne_zero (raises_initializeReceiver start)) hstatus
  have hout : payoutReceiver.init start = out := by
    show orFailure (initializeReceiver start) = out
    rw [hok]
    rfl
  obtain ⟨deploy', hdeploy', hfresh⟩ := initializeReceiver_ok hok
  rw [hdeploy, Except.ok.injEq] at hdeploy'
  rw [← hdeploy', hindex] at hfresh
  obtain ⟨hstate, hcount⟩ := hfresh start.state
  rw [hout]
  exact ⟨zeroAddress, 0, 0, 0, hstate, hcount, rfl, rfl, List.Pairwise.nil, nofun, nofun⟩

/-- The payment of a receipt. -/
theorem receiptsOf_receipt {source : AccountAddress} {message : InternalMessage} {index : U8}
    {nonce : U64} {amount : U128} (hmessage : x.message = .internal message)
    (hmethod : message.methodId = Ids.receive)
    (hstatus : (payoutReceiver.processMessage x).statusCode = 0)
    (h : Receipt source message index bound lastNonce nonce total amount out) :
    receiptsOf x = [⟨nonce, amount⟩] := by
  unfold receiptsOf
  rw [hmessage, if_pos ⟨hmethod, hstatus⟩]
  have hnonce : bodyNonce message.body = nonce := by
    rw [h.body_eq, bodyNonce_paymentBody]
  show [Payment.mk (bodyNonce message.body) (principal message.extra)] = _
  rw [hnonce, ← h.amount_eq]

/-- **Every call of a receiver** is counted, if it takes a payment, and reports nothing else. -/
theorem Keeping.call (h : Keeping i x.state receipts reports) :
    Keeping i ((payoutReceiver.processMessage x).nextState x.state) (receipts ++ receiptsOf x)
      (reports ++ (payoutReceiver.processMessage x).outboundIntents) := by
  obtain ⟨bound, lastNonce, total, count, h⟩ := h
  cases hresult : processReceiver x with
  | error code =>
      have hcall : payoutReceiver.processMessage x = MessageOutput.failure code := by
        show orFailure (processReceiver x) = _
        rw [hresult]
        rfl
      have hcode : code ≠ 0 := raises_ne_zero (raises_processReceiver x) code hresult
      have hnone : receiptsOf x = [] := by
        unfold receiptsOf
        rw [hcall]
        exact if_neg fun hno => hcode hno.2
      rw [hnone, hcall, List.append_nil]
      show Keeping i x.state receipts (reports ++ [])
      rw [List.append_nil]
      exact ⟨bound, lastNonce, total, count, h⟩
  | ok out =>
      have hcall : payoutReceiver.processMessage x = out := by
        show orFailure (processReceiver x) = _
        rw [hresult]
        rfl
      have hstatus : (payoutReceiver.processMessage x).statusCode = 0 := by
        rw [hcall]
        exact statusCode_of_processReceiver hresult
      rcases processReceiver_cases h.state hresult with
        ⟨source, message, -, hmessage, hreported, nonce, amount, hreceipt, hstate⟩ |
          ⟨hmethod, hsilent, bound', -, hstate⟩
      · rw [receiptsOf_receipt hmessage hreported.method_eq hstatus hreceipt, hcall]
        obtain ⟨count₀, count', hold, hcount, hnew⟩ := hreported.counted
        obtain rfl : count = count₀ := toLe_inj (by decide) (h.count_at.symm.trans hold)
        have hlater : lastNonce.toNat < nonce.toNat := BitVec.lt_def.mp hreceipt.later
        refine ⟨bound, nonce, total + amount, count', hstate _, hnew _, ?_, ?_, ?_, ?_, ?_⟩
        · rw [BitVec.toNat_add_of_lt hreceipt.fits, totalOf_append, totalOf_singleton, h.total_eq]
        · rw [hcount, h.count_eq, List.length_append, List.length_singleton]
        · exact h.ascends.concat fun p hp => (h.le_last p hp).trans_lt hlater
        · intro p hp
          rcases List.mem_append.mp hp with hold | hnew
          · exact ((h.le_last p hold).trans_lt hlater).le
          · rw [List.mem_singleton.mp hnew]
            exact le_rfl
        · intro report hreport
          rcases List.mem_append.mp hreport with hold | hnew
          · obtain ⟨p, hp, hbody⟩ := h.reported report hold
            exact ⟨p, List.mem_append_left _ hp, hbody⟩
          · refine ⟨_, List.mem_append_right _ List.mem_cons_self, ?_⟩
            exact (hreported.reports report hnew).2.trans hreceipt.body_eq
      · have hnone : receiptsOf x = [] := if_neg fun hno => hmethod hno.1
        rw [hnone, hcall, hsilent.outboundIntents_eq, List.append_nil, List.append_nil]
        exact ⟨bound', lastNonce, total, count, hstate _, (hsilent.count_eq _).trans h.count_at,
          h.total_eq, h.count_eq, h.ascends, h.le_last, h.reported⟩

/-! ## Records -/

/-- **A record counts some of the payments** of a receiver, each of them once. -/
structure Recorded (r : Record) (receipts taken : List Payment) : Prop where
  filtered : Taken Payment.key r.lastNonce.toNat receipts taken
  total_eq : r.total.toNat = totalOf taken
  count_eq : r.count.toNat = taken.length
  last : r.lastNonce = 0 ∨ ∃ p ∈ receipts, p.nonce = r.lastNonce

variable {r r' : Record} {taken : List Payment}

omit [Target] in
/-- A fresh record has counted nothing. -/
theorem recorded_default (receipts : List Payment) : Recorded Record.default receipts [] :=
  ⟨Taken.nil _ _ _, rfl, rfl, .inl rfl⟩

omit [Target] in
/-- The receiver takes more payments. -/
theorem Recorded.send (h : Recorded r receipts taken) (more : List Payment) :
    Recorded r (receipts ++ more) taken := by
  refine ⟨h.filtered.send more, h.total_eq, h.count_eq, h.last.imp_right ?_⟩
  rintro ⟨p, hp, hlast⟩
  exact ⟨p, List.mem_append_left more hp, hlast⟩

omit [Target] in
/-- **A report that is taken** tells of a payment that was not recorded before. -/
theorem Recorded.add (h : Recorded r receipts taken) (hascends : Ascends Payment.key receipts)
    {p : Payment} (hp : p ∈ receipts) (hadd : r.add p.nonce p.amount = .ok r') :
    Recorded r' receipts (taken ++ [p]) := by
  obtain ⟨hlater, hnonce, htotal, hcount⟩ := Ledger.add_ok_iff.mp hadd
  refine ⟨?_, ?_, ?_, .inr ⟨p, hp, hnonce.symm⟩⟩
  · rw [hnonce]
    exact h.filtered.take hascends hp (BitVec.lt_def.mp hlater)
  · rw [htotal, h.total_eq, totalOf_append, totalOf_singleton]
  · rw [hcount, h.count_eq, List.length_append, List.length_singleton]

/-! ## Frames -/

/-- The messages of a frame. -/
def Frame.messages : Frame → List CanonicalMessage
  | .message _ x _ => [x.message]
  | .batch _ input _ => carried input

/-- The messages of a frame are well formed. -/
theorem Frame.message_wellFormed {frame : Frame} {message : CanonicalMessage}
    (h : message ∈ frame.messages) : message.WellFormed := by
  cases frame with
  | message b x decodes =>
      rw [List.mem_singleton.mp h]
      exact ((decodeMessageInput_ok_iff b x).mp decodes).2.message_ok
  | batch b input decodes =>
      obtain ⟨-, hframed, messages, hms⟩ := (decodeBatchInput_ok_iff b input).mp decodes
      change message ∈ carried input at h
      rw [carried_eq hframed hms] at h
      exact (BatchInput.isolated_wellFormed hframed hms h).message_ok

/-- **The records of a ledger** only change by the reports of a frame, from sources that were set
before. -/
theorem Frame.records_induction (frame : Frame) {l : Ledger} {P : Records → Prop} (hP : P l.records)
    (htake : ∀ (l' : Ledger) (m : InternalMessage) (e : Entry), l'.sources = l.sources →
      .internal m ∈ frame.messages → Ledger.Admitted l' m.source m e → P l'.records →
        P (l'.withRecord e.index e.record).records) : P (frame.answered l).2.records := by
  cases frame with
  | message b x decodes =>
      show P (l.answered x).2.records
      have hwf := ((decodeMessageInput_ok_iff b x).mp decodes).2
      unfold Ledger.answered
      cases hhandle : l.handle x with
      | error code => exact hP
      | ok c =>
          cases Ledger.handled_of_handle hhandle with
          | query => exact hP
          | bound => exact hP
          | @report source e method caller taken =>
              cases hm : x.message with
              | external m =>
                  rw [hm] at taken
                  cases taken
              | internal m =>
                  have hsender := hwf.caller_eq
                  rw [hm, caller] at hsender
                  obtain rfl : source = m.source := Caller.internal.inj hsender
                  rw [hm] at taken
                  refine htake l m e rfl ?_ (Ledger.receive_ok_iff.mp taken) hP
                  exact List.mem_singleton.mpr hm.symm
  | batch b input decodes =>
      show P (l.batchAnswered (carried input)).2.records
      unfold Ledger.batchAnswered
      split_ifs with hlong
      · exact hP
      · -- a batch changes no source
        let I (l' : Ledger) : Prop := l'.sources = l.sources ∧ P l'.records
        rw [Ledger.rounds_eq]
        show P (Ledger.replies (carried input) l).2.records
        refine (Alloc.run_invariant_of_mem (I := I) (fun message hmem l' hl' => ?_) ⟨rfl, hP⟩).2
        show I (l'.reply message).2
        unfold Ledger.reply
        cases hreceive : l'.receiveMessage message with
        | error code => exact hl'
        | ok e =>
            obtain ⟨m, rfl, hadmitted⟩ := Ledger.receiveMessage_ok_iff.mp hreceive
            exact ⟨hl'.1, htake l' m e hl'.1 hmem hadmitted hl'.2⟩

/-! ## Configurations -/

/-- A configuration: the states of the accounts, and what the receivers have done so far. Their
reports stay where they are: each can still be delivered, and nothing says that it will. -/
structure Reporting where
  /-- The state of the ledger. -/
  ledger : Bytes
  /-- The states of the receivers. -/
  receivers : Fin maxMembers → Bytes
  /-- The payments that they have taken, the latest last. -/
  receipts : Fin maxMembers → List Payment
  /-- The messages that they have emitted. -/
  reports : Fin maxMembers → List OutboundIntent

/-- The source of every member is the receiver with its index, if there is one. -/
def Wired (address : Fin maxMembers → AccountAddress) (b : Bytes) : Prop :=
  ∀ members, Legacy.layout.validate b = .ok members → ∀ i : Fin maxMembers, i.val < members →
    Legacy.layout.sourceAt b i = .ok zeroAddress ∨ Legacy.layout.sourceAt b i = .ok (address i)

/-- A report that comes from a receiver was emitted by it. Nothing is asked of other messages. -/
def Reporting.Genuine (address : Fin maxMembers → AccountAddress) (n : Reporting)
    (message : CanonicalMessage) : Prop :=
  ∀ m, message = .internal m → m.methodId = Ids.auditRecord → ∀ i, m.source = address i →
    ∃ report ∈ n.reports i, report.methodId = m.methodId ∧ report.body = m.body

/-- The configuration after a call of a receiver. -/
def Reporting.called (n : Reporting) (i : Fin maxMembers) (x : MessageInput) : Reporting :=
  { n with
    receivers := Function.update n.receivers i
      ((payoutReceiver.processMessage x).nextState (n.receivers i))
    receipts := Function.update n.receipts i (n.receipts i ++ receiptsOf x)
    reports := Function.update n.reports i
      (n.reports i ++ (payoutReceiver.processMessage x).outboundIntents) }

/-- A call of a receiver leaves the ledger alone. -/
@[simp] theorem Reporting.ledger_called (n : Reporting) (i : Fin maxMembers) (x : MessageInput) :
    (n.called i x).ledger = n.ledger := rfl

/-- The configuration after a frame for the ledger. -/
def Reporting.served (n : Reporting) (frame : Frame) (mode : StateOutputMode) : Reporting :=
  { n with ledger := (frame.serve Legacy.auditLedger mode n.ledger).2 }

/-- **The steps**: any call of a receiver, and any frame for the ledger, in any mode. -/
inductive Reporting.Step (address : Fin maxMembers → AccountAddress) (n : Reporting) :
    Reporting → Prop
  /-- A receiver gets a message. -/
  | receiver {i : Fin maxMembers} {x : MessageInput} (wellFormed : x.WellFormed)
      (state_eq : x.state = n.receivers i) : Step address n (n.called i x)
  /-- The ledger gets a message or a batch. -/
  | ledger {frame : Frame} {mode : StateOutputMode}
      (genuine : ∀ message ∈ frame.messages, n.Genuine address message)
      (wired : Wired address (n.served frame mode).ledger) : Step address n (n.served frame mode)

/-- A ledger and its receivers after their deployments. -/
structure Reporting.Opening (start : MessageInput) (starts : Fin maxMembers → MessageInput)
    (n : Reporting) : Prop where
  ledger : Legacy.auditLedger.Starts start n.ledger
  receivers : ∀ i, payoutReceiver.Starts (starts i) (n.receivers i)
  index_eq : ∀ i, ∃ deploy, (starts i).deploy = .ok deploy ∧
    deploy.initData.getD 64 0 = BitVec.ofNat 8 i.val
  receipts : n.receipts = fun _ => []
  reports : n.reports = fun _ => []

/-- **What holds in every configuration** that is reached. -/
structure Reporting.Coherent (address : Fin maxMembers → AccountAddress) (n : Reporting)
    (l : Ledger) : Prop where
  stored : Stores l n.ledger
  wired : ∀ i, l.sources i = zeroAddress ∨ l.sources i = address i
  receivers : ∀ i, Keeping i (n.receivers i) (n.receipts i) (n.reports i)
  records : ∀ i, ∃ taken, Recorded (l.records i) (n.receipts i) taken

/-- **A record is backed** by the state of its receiver and the payments that it has taken: it is
nowhere ahead, and it is exact for some of the payments, each of them counted once. -/
structure Backed (r : Record) (b : Bytes) (receipts : List Payment) : Prop where
  total : ∃ total, received b = .ok total ∧ r.total ≤ total ∧ total.toNat = totalOf receipts
  count : ∃ count, wordAt eArgs 64 b 192 = .ok count ∧ r.count ≤ count ∧
    count.toNat = receipts.length
  lastNonce : ∃ lastNonce, wordAt eArgs 64 b 168 = .ok lastNonce ∧ r.lastNonce ≤ lastNonce
  taken : ∃ taken : List Payment, taken.Sublist receipts ∧ (taken.map Payment.key).Nodup ∧
    r.total.toNat = totalOf taken ∧ r.count.toNat = taken.length

namespace Reporting

variable {address : Fin maxMembers → AccountAddress} {n n' : Reporting} {l : Ledger}
  {start : MessageInput} {starts : Fin maxMembers → MessageInput}

/-- The sources of a ledger, as they are read from its state. -/
theorem wired_iff (hl : Stores l b) :
    Wired address b ↔ ∀ i, l.sources i = zeroAddress ∨ l.sources i = address i := by
  obtain ⟨hvalid, rfl⟩ := hl
  have hread {i : Fin maxMembers} (hi : l.Active i) :
      Legacy.layout.sourceAt (Legacy.format.encode l) i = .ok (l.sources i) := by
    have hread := Legacy.reads.lawful.source_eq hvalid hi
    rwa [Ledger.slot_val] at hread
  constructor
  · intro h i
    by_cases hi : l.Active i
    · have hcases := h _ (Legacy.reads.validate_iff.mpr ⟨l, hvalid, rfl, rfl⟩) i hi
      rw [hread hi, Except.ok.injEq, Except.ok.injEq] at hcases
      exact hcases
    · exact .inl (hvalid.idle i hi).1
  · intro h members hmembers i hi
    obtain ⟨l', hvalid', hstate, hcount⟩ := Legacy.reads.validate_iff.mp hmembers
    obtain rfl : l' = l := Legacy.reads.lawful.injective hvalid' hvalid hstate
    rw [← hcount] at hi
    rw [hread hi, Except.ok.injEq, Except.ok.injEq]
    exact h i

/-- A deployed ledger has no sources and no reports. -/
theorem stores_of_starts (h : Legacy.auditLedger.Starts start b) : ∃ owner deploy,
    start.caller = .external owner ∧ start.deploy = .ok deploy ∧
      Stores (Ledger.new owner (deploy.initData.getD 0 0)) b := by
  obtain ⟨hwf, hstatus, hledger⟩ := h
  obtain ⟨owner, deploy, hcaller, hdeploy, hnew, hinit⟩ := Compact.init_legacy hwf hstatus
  rw [hinit] at hledger
  exact ⟨owner, deploy, hcaller, hdeploy, hnew, hledger.symm⟩

/-- The configuration after the deployments. -/
theorem Opening.coherent (h : Opening start starts n) : ∃ l, Coherent address n l := by
  obtain ⟨owner, deploy, -, -, hstores⟩ := stores_of_starts h.ledger
  refine ⟨_, hstores, fun i => .inl rfl, fun i => ?_, fun i => ⟨[], recorded_default _⟩⟩
  obtain ⟨deploy, hdeploy, hindex⟩ := h.index_eq i
  rw [h.receipts, h.reports]
  exact keeping_of_starts (h.receivers i) hdeploy hindex

/-- **A call of a receiver.** -/
theorem Coherent.receiver (h : Coherent address n l) {i : Fin maxMembers} {x : MessageInput}
    (hstate : x.state = n.receivers i) : Coherent address (n.called i x) l := by
  unfold called
  refine ⟨h.stored, h.wired, fun j => ?_, fun j => ?_⟩
  · dsimp only
    by_cases hj : j = i
    · subst hj
      have hkeeping := h.receivers j
      rw [← hstate] at hkeeping ⊢
      simp only [Function.update_self]
      exact hkeeping.call
    · simp only [Function.update_of_ne hj]
      exact h.receivers j
  · obtain ⟨taken, hrecorded⟩ := h.records j
    dsimp only
    by_cases hj : j = i
    · subst hj
      rw [Function.update_self]
      exact ⟨taken, hrecorded.send _⟩
    · rw [Function.update_of_ne hj]
      exact ⟨taken, hrecorded⟩

/-- **A report that the ledger takes** tells of a payment that its receiver has taken. -/
theorem Coherent.report (h : Coherent address n l) {frame : Frame} {l' : Ledger}
    {m : InternalMessage} {e : Entry} (hsources : l'.sources = l.sources)
    (hgenuine : ∀ message ∈ frame.messages, n.Genuine address message)
    (hmem : .internal m ∈ frame.messages) (hadmitted : Ledger.Admitted l' m.source m e) :
    ∃ p ∈ n.receipts (slot e.index), p.nonce = e.nonce ∧ p.amount = e.amount := by
  have hwf : InternalMessage.WellFormed m := Frame.message_wellFormed hmem
  have hbound := hadmitted.source_eq
  rw [hsources] at hbound
  have hsource : m.source = address (slot e.index) := by
    refine (h.wired (slot e.index)).elim (fun hzero => ?_) fun hset => hbound.trans hset
    -- no message comes from the zero address
    have hnone : isZeroAddress m.source := by
      rw [hbound, hzero]
      exact .inl rfl
    exact absurd hnone hwf.source_ne_zero
  have hmethod : m.methodId = Ids.auditRecord := by
    by_contra hno
    exact hadmitted.report (.inl hno)
  obtain ⟨report, hreport, -, hbody⟩ := hgenuine _ hmem m rfl hmethod _ hsource
  obtain ⟨_, _, _, _, hkept⟩ := h.receivers (slot e.index)
  obtain ⟨p, hp, htells⟩ := hkept.reported report hreport
  obtain ⟨index, -, -, -, -, hread⟩ := readPayment_ok_iff.mp hadmitted.body_eq
  have heq := hread.symm.trans (hbody.symm.trans htells)
  have hnonce := congrArg bodyNonce heq
  have hamount := congrArg bodyAmount heq
  simp only [bodyNonce_paymentBody, bodyAmount_paymentBody] at hnonce hamount
  exact ⟨p, hp, hnonce.symm, hamount.symm⟩

/-- **A frame for the ledger.** -/
theorem Coherent.frame (h : Coherent address n l) {frame : Frame} {mode : StateOutputMode}
    (hgenuine : ∀ message ∈ frame.messages, n.Genuine address message)
    (hwired : Wired address (n.served frame mode).ledger) :
    ∃ l', Coherent address (n.served frame mode) l' := by
  obtain ⟨hvalid, hstate⟩ := h.stored
  unfold served at hwired ⊢
  rw [← hstate] at hwired ⊢
  rcases Legacy.serve_cases frame mode hvalid with hserved | hkept
  · rw [hserved] at hwired ⊢
    have hstored : Stores (frame.answered l).2 (Legacy.format.encode (frame.answered l).2) :=
      ⟨frame.valid_answered hvalid, rfl⟩
    refine ⟨_, hstored, (wired_iff hstored).mp hwired, h.receivers, ?_⟩
    let P (records : Records) : Prop := ∀ i, ∃ taken, Recorded (records i) (n.receipts i) taken
    refine frame.records_induction (P := P) h.records fun l' m e hsources hmem hadmitted hP i => ?_
    by_cases hi : i = slot e.index
    · obtain ⟨taken, hrecorded⟩ := hP i
      obtain ⟨p, hp, hnonce, hamount⟩ := h.report hsources hgenuine hmem hadmitted
      have hadd := hadmitted.add_eq
      rw [hi] at hrecorded ⊢
      rw [← hnonce, ← hamount] at hadd
      obtain ⟨_, _, _, _, hkept⟩ := h.receivers (slot e.index)
      refine ⟨taken ++ [p], ?_⟩
      show Recorded (Function.update l'.records (slot e.index) e.record (slot e.index)) _ _
      rw [Function.update_self]
      exact hrecorded.add hkept.ascends hp hadd
    · show ∃ taken, Recorded (Function.update l'.records (slot e.index) e.record i) _ taken
      rw [Function.update_of_ne hi]
      exact hP i
  · rw [hkept]
    exact ⟨l, ⟨hvalid, rfl⟩, h.wired, h.receivers, h.records⟩

/-- **Every configuration that is reached** is coherent. -/
theorem Coherent.reaches (h : Coherent address n l)
    (hreach : Relation.ReflTransGen (Step address) n n') : ∃ l', Coherent address n' l' := by
  induction hreach with
  | refl => exact ⟨l, h⟩
  | tail _ hstep ih =>
      obtain ⟨l', h'⟩ := ih
      cases hstep with
      | receiver wellFormed state_eq => exact ⟨l', h'.receiver state_eq⟩
      | ledger genuine wired => exact h'.frame genuine wired

/-- A record that counts some payments of a receiver is backed by it. -/
theorem Coherent.backed (h : Coherent address n l) (i : Fin maxMembers) :
    Backed (l.records i) (n.receivers i) (n.receipts i) := by
  obtain ⟨taken, hrecorded⟩ := h.records i
  obtain ⟨bound, lastNonce, total, count, hkept⟩ := h.receivers i
  have hsublist := hrecorded.filtered.sublist
  have hlen : (n.receivers i).length = 224 := hkept.state.length_eq
  have hword {w p : ℕ} {v : BitVec w} (hw : 8 ∣ w) (hfits : p + w / 8 ≤ 224)
      (hread : (n.receivers i).extract p (p + w / 8) = toLe v) :
      wordAt eArgs w (n.receivers i) p = .ok v :=
    (wordAt_ok_iff hkept.state.lt hw (hfits.trans_eq hlen.symm)).mpr hread.symm
  refine ⟨⟨total, hkept.state.received_eq, ?_, hkept.total_eq⟩,
    ⟨count, hword (by decide) (by decide) hkept.count_at, ?_, hkept.count_eq⟩,
    ⟨lastNonce, hword (by decide) (by decide) hkept.state.lastNonce_eq, ?_⟩,
    taken, hsublist, hrecorded.filtered.nodup_keys hkept.ascends, hrecorded.total_eq,
    hrecorded.count_eq⟩
  · rw [BitVec.le_def, hrecorded.total_eq, hkept.total_eq]
    exact totalOf_le hsublist
  · rw [BitVec.le_def, hrecorded.count_eq, hkept.count_eq]
    exact hsublist.length_le
  · rw [BitVec.le_def]
    rcases hrecorded.last with hzero | ⟨p, hp, hlast⟩
    · rw [hzero]
      exact Nat.zero_le _
    · rw [← hlast]
      exact hkept.le_last p hp

end Reporting

/-- **The ledger never overstates what was received.** However the receivers are used and the
reports are delivered, the record of every member is backed by its receiver. -/
theorem records_backed {address : Fin maxMembers → AccountAddress} {n n' : Reporting}
    {start : MessageInput} {starts : Fin maxMembers → MessageInput}
    (hopening : n.Opening start starts)
    (hreach : Relation.ReflTransGen (Reporting.Step address) n n') :
    ∃ members, Legacy.layout.validate n'.ledger = .ok members ∧
      ∀ i : Fin maxMembers, i.val < members →
        ∃ r, Legacy.layout.record n'.ledger i = .ok r ∧
          Backed r (n'.receivers i) (n'.receipts i) := by
  have hstart : ∃ l, n.Coherent address l := hopening.coherent
  obtain ⟨l, hl⟩ := hstart
  obtain ⟨l', hl'⟩ := hl.reaches hreach
  obtain ⟨hvalid, hstate⟩ := hl'.stored
  refine ⟨_, Legacy.reads.validate_iff.mpr ⟨l', hvalid, hstate, rfl⟩, fun i hi => ?_⟩
  have hrecord := Legacy.reads.lawful.record_eq hvalid hi
  rw [Ledger.slot_val, hstate] at hrecord
  exact ⟨_, hrecord, hl'.backed i⟩

/-- **A message for the ledger** does to the configuration what it does to the ledger. -/
theorem Reporting.step_message {address : Fin maxMembers → AccountAddress} {n : Reporting}
    {l : Ledger} (hl : Stores l n.ledger) {frame : Slice} {x : MessageInput}
    (decodes : decodeMessageInput frame.bytes = .ok x) (hgenuine : n.Genuine address x.message)
    (hwired : ∀ i, (l.answered x).2.sources i = zeroAddress ∨
      (l.answered x).2.sources i = address i) :
    Reporting.Step address n { n with ledger := Legacy.format.encode (l.answered x).2 } := by
  obtain ⟨hvalid, hstate⟩ := hl
  have hserved : n.served (.message frame x decodes) .fullReplace =
      { n with ledger := Legacy.format.encode (l.answered x).2 } := by
    unfold served
    rw [← hstate, Legacy.keeps.serve (.message frame x decodes) False.elim hvalid]
    rfl
  rw [← hserved]
  refine .ledger (fun message hmem => ?_) ?_
  · rw [List.mem_singleton.mp hmem]
    exact hgenuine
  · rw [hserved]
    exact (wired_iff ⟨hvalid.answered x, rfl⟩).mpr hwired

end

/-! ## One payment, reported twice -/

section

local instance : Target := Target.wasm32

/-- The deployments of the receivers. -/
def sampleStarts (i : Fin maxMembers) : MessageInput :=
  receiverDeployment ⟨0, 0, 0, zeros 32⟩ (sampleKey 31) (sampleAddresses i) (sampleAccount 50)
    (BitVec.ofNat 8 i.val) 1

/-- A fresh ledger and fresh receivers. -/
def sampleReporting : Reporting where
  ledger := (Legacy.auditLedger.init sampleStart).nextState sampleStart.state
  receivers i := (payoutReceiver.init (sampleStarts i)).nextState []
  receipts _ := []
  reports _ := []

/-- The first receiver is bound to a vault, -/
def sampleVaultBound : Reporting :=
  sampleReporting.called sampleMember (sampleOrder (sampleReporting.receivers sampleMember)
    (sampleAddresses sampleMember) Ids.bind (sampleAccount 20).toBytes)

/-- and takes a payment from it. -/
def samplePaid : Reporting :=
  sampleVaultBound.called sampleMember (sampleDelivery (sampleVaultBound.receivers sampleMember)
    (sampleTransfer (sampleAccount 20) (sampleAddresses sampleMember) Ids.receive (some 1)
      [⟨principalCurrencyId, 5⟩]))

/-- The sample starts from deployments. -/
theorem sampleReporting_opening : sampleReporting.Opening sampleStart sampleStarts := by
  have hledger : sampleReporting.ledger =
      (Legacy.auditLedger.init sampleStart).nextState sampleStart.state := by
    simp only [sampleReporting]
  refine ⟨⟨?_, by decide +kernel, hledger⟩, fun i => ?_, fun i => ?_, rfl, rfl⟩
  · exact (exists_frame (by decide +kernel) (by decide +kernel)).1
  · have hindex : ∀ i : Fin maxMembers, (BitVec.ofNat 8 i.val).toNat < maxMembers := by decide
    have haddress : ∀ i, ¬ isZeroAddress (sampleAddresses i) ∧
        sampleAccount 50 ≠ sampleAddresses i := by
      decide +kernel
    exact starts_receiver (by decide) (haddress i).1 (by decide) (haddress i).2 rfl (hindex i)
      (by decide)
  · exact ⟨_, deploy_receiverDeployment, getD_receiverInitData⟩

/-- The run: a payment, two reports of it, and the ledger that counts it once. -/
theorem sampleReporting_reaches : ∃ n, Relation.ReflTransGen (Reporting.Step sampleAddresses)
    sampleReporting n ∧ Stores sampleToldAgain n.ledger ∧ n.receipts 0 = [⟨7, 5⟩] := by
  have hfirst : Reporting.Step sampleAddresses sampleReporting sampleVaultBound :=
    .receiver (exists_frame (by decide +kernel) (by decide +kernel)).1 (state_signedInput _ _ _ _)
  have hsecond : Reporting.Step sampleAddresses sampleVaultBound samplePaid :=
    .receiver (exists_frame (by decide +kernel) (by decide +kernel)).1 (state_internalInput _ _ _ _)
  have hnew : Stores (Ledger.new (sampleKey 31) 1) samplePaid.ledger := by
    obtain ⟨owner, deploy, hcaller, hdeploy, hstores⟩ :=
      Reporting.stores_of_starts sampleReporting_opening.ledger
    have hdeploy' : sampleStart.deploy = .ok ⟨zeros 32, zeros 32, [], [], [1]⟩ :=
      deploy_signedInput rfl rfl (by decide)
    rw [hdeploy', Except.ok.injEq] at hdeploy
    obtain rfl : sampleKey 31 = owner := Caller.external.inj hcaller
    rw [← hdeploy] at hstores
    unfold samplePaid sampleVaultBound
    simp only [Reporting.ledger_called]
    exact hstores
  obtain ⟨frame, hframe⟩ := (exists_frame sampleBinding_decodes sampleBinding_fits).2
  obtain ⟨frame', hframe'⟩ := (exists_frame sampleReport_decodes sampleReport_fits).2
  have hthird : Reporting.Step sampleAddresses samplePaid _ :=
    Reporting.step_message hnew hframe (fun m hm => by cases hm) (by decide +kernel)
  have hgenuine (b : Bytes) : Reporting.Genuine sampleAddresses { samplePaid with ledger := b }
      sampleReport.message := by
    intro m hm _ i hi
    obtain rfl := CanonicalMessage.internal.inj hm
    have hzero : ∀ i, sampleAddresses 0 = sampleAddresses i → i = 0 := by decide +kernel
    obtain rfl := hzero i hi
    have hreported : ∃ report ∈ samplePaid.reports 0,
        report.methodId = Ids.auditRecord ∧ report.body = paymentBody 0 7 5 := by decide +kernel
    exact hreported
  have hfourth : Reporting.Step sampleAddresses _ _ :=
    Reporting.step_message ⟨hnew.1.answered sampleBinding, rfl⟩ hframe' (hgenuine _)
      (by decide +kernel)
  have hfifth : Reporting.Step sampleAddresses _ _ :=
    Reporting.step_message ⟨(hnew.1.answered sampleBinding).answered sampleReport, rfl⟩ hframe'
      (hgenuine _) (by decide +kernel)
  have hreach := (((Relation.ReflTransGen.single hfirst).tail hsecond).tail hthird).tail hfourth
  refine ⟨_, hreach.tail hfifth, ⟨?_, rfl⟩, ?_⟩
  · exact ((hnew.1.answered sampleBinding).answered sampleReport).answered sampleReport
  · show samplePaid.receipts 0 = _
    decide +kernel

/-- The record of a payment that was reported twice. -/
theorem records_backed_sample : letI := Target.wasm32
    ∃ (n : Reporting) (r : Record), Legacy.layout.record n.ledger 0 = .ok r ∧ r.total = 5 ∧
      r.count = 1 ∧ Backed r (n.receivers 0) (n.receipts 0) := by
  obtain ⟨n, hreach, hstores, -⟩ := sampleReporting_reaches
  obtain ⟨members, hmembers, hbacked⟩ := records_backed sampleReporting_opening hreach
  obtain ⟨l, hl, hstate, hcount⟩ := Legacy.reads.validate_iff.mp hmembers
  obtain rfl : l = sampleToldAgain :=
    Legacy.reads.lawful.injective hl hstores.1 (hstate.trans hstores.2.symm)
  have hactive : sampleToldAgain.Active 0 := by decide +kernel
  obtain ⟨r, hr, hbacking⟩ := hbacked 0 (hactive.trans_eq hcount)
  have hrecord := Legacy.reads.lawful.record_eq hl hactive
  rw [hstate, hr, Except.ok.injEq] at hrecord
  have htold : sampleToldAgain.records 0 = ⟨7, 5, 1⟩ := by decide +kernel
  have heq : r = ⟨7, 5, 1⟩ := hrecord.trans htold
  exact ⟨n, r, hr, congrArg Record.total heq, congrArg Record.count heq, hbacking⟩

end

end AvmSdk.Audit
