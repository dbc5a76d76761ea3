import AvmSdk.Contracts.Forward.Deliveries
import AvmSdk.Contracts.Forward.Versions
import AvmSdk.Contracts.Network

/-!
# The causal chain

An account of contract A, accounts of contract B, and the messages on their way between them. A
forward is delivered at most once, to a contract B or to any other account, and its callback comes
back if one was requested. Everything may happen in any order.

* `Causal`, `Causal.Step`: the configurations and the steps.
* `causal_confirmed`: if A has recorded a callback, the first message that it sent was delivered, and
  contract B has taken it.
* `round_trip`: when contract B accepts what contract A forwards, and when contract A accepts the
  callback.
-/

namespace AvmSdk.Forward

open Wire Sdk Contracts ContractB

/-- A configuration: the states of the accounts, and the messages on their way. -/
structure Causal (ι : Type) where
  /-- The account of contract A. -/
  sender : Account
  /-- The states of the accounts of contract B. -/
  inboxes : ι → Bytes
  /-- The forwards on their way. -/
  transfers : List Flight
  /-- The callbacks on their way. -/
  callbacks : List InternalMessage
  /-- All that was sent so far. -/
  sent : List Flight
  /-- All that was delivered and accepted so far. -/
  delivered : List Flight

/-- The accounts. -/
structure Setting (ι : Type) where
  /-- The key that upgrades the account of contract A, -/
  owner : Bytes32
  /-- the code that it can select, -/
  codes : Codes
  /-- and its address. -/
  senderAddress : AccountAddress
  /-- The addresses of the accounts of contract B. -/
  address : ι → AccountAddress
  address_injective : Function.Injective address

/-- The callback of a forward: one if it was requested, and none otherwise. -/
inductive CallbackFor (payer : AccountAddress) (f : Flight) (P : InternalMessage → CallbackHeader → Prop) :
    List InternalMessage → Prop
  /-- No callback was requested. -/
  | none (handler_eq : f.handler = none) : CallbackFor payer f P []
  /-- The callback. -/
  | some {message : InternalMessage} {h : CallbackHeader} (answers : CallbackOf payer f [] message h)
      (holds : P message h) : CallbackFor payer f P [message]

section

variable [Target] {ι : Type} [DecidableEq ι]

/-- **The steps.** -/
inductive Causal.Step (w : Setting ι) (n : Causal ι) : Causal ι → Prop
  /-- Contract A gets any message that is no callback. -/
  | call {c : Call} {a : Account} (calls : Account.Calls w.owner w.codes n.sender c a)
      (plain : ¬ c.input.message.isCallback) :
      Step w n { n with
        sender := a
        transfers := n.transfers ++ flights c.input.context.blockLt c.output
        sent := n.sent ++ flights c.input.context.blockLt c.output }
  /-- A contract B gets a message of anyone else. -/
  | receive {i : ι} {x : MessageInput} (wellFormed : x.WellFormed) (state_eq : x.state = n.inboxes i)
      (other : x.caller ≠ .internal w.senderAddress) :
      Step w n { n with
        inboxes := Function.update n.inboxes i
          ((contractB.processMessage x).nextState (n.inboxes i)) }
  /-- A forward is delivered to a contract B, which accepts it. -/
  | deliver {pre post : List Flight} {f : Flight} {i : ι} {x : MessageInput}
      {message : InternalMessage} {cs : List InternalMessage}
      (transfers_eq : n.transfers = pre ++ f :: post) (address_eq : f.intent.destination = w.address i)
      (wellFormed : x.WellFormed) (state_eq : x.state = n.inboxes i)
      (message_eq : x.message = .internal message) (delivers : Delivers w.senderAddress f message)
      (accepted : (contractB.processMessage x).statusCode = 0)
      (callback : CallbackFor w.senderAddress f (fun m h => h.statusCode = 0 ∧
        m.body = (contractB.processMessage x).callbackResultBody) cs) :
      Step w n { n with
        inboxes := Function.update n.inboxes i
          ((contractB.processMessage x).nextState (n.inboxes i))
        transfers := pre ++ post
        callbacks := n.callbacks ++ cs
        delivered := n.delivered ++ [f] }
  /-- A forward is delivered to some other account, which accepts it. -/
  | leave {pre post : List Flight} {f : Flight} {cs : List InternalMessage}
      (transfers_eq : n.transfers = pre ++ f :: post) (away : ∀ i, f.intent.destination ≠ w.address i)
      (callback : CallbackFor w.senderAddress f (fun _ h => h.statusCode = 0) cs) :
      Step w n { n with
        transfers := pre ++ post
        callbacks := n.callbacks ++ cs
        delivered := n.delivered ++ [f] }
  /-- A forward fails, for any reason. -/
  | fail {pre post : List Flight} {f : Flight} {cs : List InternalMessage}
      (transfers_eq : n.transfers = pre ++ f :: post)
      (callback : CallbackFor w.senderAddress f (fun _ h => h.statusCode ≠ 0) cs) :
      Step w n { n with
        transfers := pre ++ post
        callbacks := n.callbacks ++ cs }
  /-- A callback is delivered. -/
  | answer {pre post : List InternalMessage} {callback : InternalMessage} {c : Call} {a : Account}
      (callbacks_eq : n.callbacks = pre ++ callback :: post)
      (calls : Account.Calls w.owner w.codes n.sender c a)
      (message_eq : c.input.message = .internal callback) :
      Step w n { n with
        sender := a
        transfers := n.transfers ++ flights c.input.context.blockLt c.output
        callbacks := pre ++ post
        sent := n.sent ++ flights c.input.context.blockLt c.output }

/-! ## What a contract B has taken -/

/-- The state has taken something. -/
def Filled (b : Bytes) : Prop := ∃ s : Inbox, b = s.encode ∧ 1 ≤ s.count.toNat

omit [Target] in
/-- Whatever is accepted, something was taken. -/
theorem Taken.one_le_next {act : Taken} {s : Inbox} (h : act.Allowed s) :
    1 ≤ (act.next s).count.toNat := by
  cases act with
  | delivery source methodId =>
      have hlt : s.count.toNat + (1 : U64).toNat < 2 ^ 64 := h
      have hnext : (s.count + 1).toNat = s.count.toNat + 1 := BitVec.toNat_add_of_lt hlt
      show 1 ≤ (s.count + 1).toNat
      omega
  | drain source =>
      have hone : s.count = 1 := h
      show 1 ≤ s.count.toNat
      rw [hone]
      decide
  | read request results => exact le_rfl

/-- An accepted message fills the inbox. -/
theorem filled_of_accepted {x : MessageInput} (h : (contractB.processMessage x).statusCode = 0)
    (b : Bytes) : Filled ((contractB.processMessage x).nextState b) := by
  obtain ⟨out, hout, hanswer⟩ := exists_output_of_statusCode (raises_ne_zero raises_process) h
  obtain ⟨s, act, es, -, -, hallowed, -, rfl⟩ := process_ok_iff.mp hout
  have hprocess : contractB.processMessage x = act.output x s es := hanswer
  rw [hprocess]
  exact ⟨act.next s, rfl, Taken.one_le_next hallowed⟩

/-- What is filled stays so. -/
theorem Filled.processed {b : Bytes} (h : Filled b) (x : MessageInput) :
    Filled ((contractB.processMessage x).nextState b) := by
  by_cases hstatus : (contractB.processMessage x).statusCode = 0
  · exact filled_of_accepted hstatus b
  · have hprocess : contractB.processMessage x = orFailure (process x) := rfl
    cases hresult : process x with
    | error e =>
        rw [hprocess, hresult]
        exact h
    | ok out =>
        obtain ⟨_, act, es, -, -, -, -, rfl⟩ := process_ok_iff.mp hresult
        rw [hprocess, hresult] at hstatus
        exact absurd rfl hstatus

/-! ## The invariant -/

/-- **The chain so far.** -/
structure Causal.Chained (w : Setting ι) (n : Causal ι) (r : Record) : Prop where
  state_eq : n.sender.state = r.encode
  /-- The first counter is what was sent. -/
  forwards_eq : r.forwards.toNat = n.sent.length
  transfers : n.transfers ⊆ n.sent
  delivered : n.delivered ⊆ n.sent
  /-- A callback that reports a success belongs to a forward that was delivered. -/
  callbacks : ∀ m ∈ n.callbacks, ∃ f h, CallbackOf w.senderAddress f [] m h ∧
    (h.statusCode = 0 → f ∈ n.delivered)
  /-- What was delivered to a contract B was taken. -/
  filled : ∀ f ∈ n.delivered, ∀ i, f.intent.destination = w.address i → Filled (n.inboxes i)
  /-- A recorded callback belongs to the first forward, which was delivered. -/
  confirmed : r.callbacks ≠ 0 → ∃ f ∈ n.sent.head?, f.handler.isSome ∧ f ∈ n.delivered

variable {w : Setting ι} {n n' : Causal ι} {r : Record}

omit [Target] [DecidableEq ι] in
/-- The messages that an answer sends. -/
theorem length_flights {blockLt : U64} {out : MessageOutput} :
    (flights blockLt out).length = out.outboundIntents.length := by
  rw [flights, List.length_map, List.length_zipIdx]

omit [Target] [DecidableEq ι] in
/-- The callbacks of a forward, beside those before. -/
theorem Causal.Chained.callbacks_append (h : n.Chained w r) {f : Flight} {cs : List InternalMessage}
    {P : InternalMessage → CallbackHeader → Prop} {d : List Flight}
    (hcallback : CallbackFor w.senderAddress f P cs)
    (hstatus : ∀ m h, P m h → h.statusCode = 0 → f ∈ n.delivered ++ d) :
    ∀ m ∈ n.callbacks ++ cs, ∃ f h, CallbackOf w.senderAddress f [] m h ∧
      (h.statusCode = 0 → f ∈ n.delivered ++ d) := by
  intro m hm
  rcases List.mem_append.mp hm with hm | hm
  · obtain ⟨f', h', hanswers, hdelivered⟩ := h.callbacks m hm
    exact ⟨f', h', hanswers, fun hzero => List.mem_append_left _ (hdelivered hzero)⟩
  · cases hcallback with
    | none => cases hm
    | some hanswers hholds =>
        rw [List.mem_singleton.mp hm]
        exact ⟨f, _, hanswers, hstatus _ _ hholds⟩

omit [Target] in
/-- The inboxes that were filled before an update of one of them. -/
theorem filled_update {inboxes : ι → Bytes} {i j : ι} {b : Bytes} (hfilled : Filled (inboxes j))
    (hb : i = j → Filled b) : Filled (Function.update inboxes i b j) := by
  by_cases hij : j = i
  · rw [hij, Function.update_self]
    exact hb hij.symm
  · rwa [Function.update_of_ne hij]

omit [DecidableEq ι] in
/-- A call of the sender. -/
theorem Causal.Chained.called (h : n.Chained w r) {c : Call} {a : Account}
    (hcalls : Account.Calls w.owner w.codes n.sender c a) {cs : List InternalMessage} (hcs : cs ⊆ n.callbacks)
    (hreceipt : c.AcceptedCallback → r.forwards = 1 →
      ∃ f ∈ n.sent.head?, f.handler.isSome ∧ f ∈ n.delivered) :
    ∃ r', Causal.Chained w { n with
      sender := a
      transfers := n.transfers ++ flights c.input.context.blockLt c.output
      callbacks := cs
      sent := n.sent ++ flights c.input.context.blockLt c.output } r' := by
  have hhead {f : Flight} {new : List Flight} (hf : f ∈ n.sent.head?) :
      f ∈ (n.sent ++ new).head? := by
    cases hsent : n.sent with
    | nil =>
        rw [hsent] at hf
        cases hf
    | cons g gs =>
        rw [hsent] at hf
        exact hf
  obtain ⟨t, hmove, rfl⟩ := hcalls.moves h.state_eq
  cases hmove with
  | @act act _ hasks hallowed hout =>
      refine ⟨act.next r, rfl, ?_, ?_, ?_, fun m hm => h.callbacks m (hcs hm), h.filled, ?_⟩
      · have hlength : (flights c.input.context.blockLt c.output).length =
            (act.sends n.sender.version c.input).length := by
          rw [length_flights, hout]
          rfl
        rw [List.length_append, hlength, ← h.forwards_eq]
        exact Act.forwards_next hallowed
      · intro f hf
        rcases List.mem_append.mp hf with hf | hf
        · exact List.mem_append_left _ (h.transfers hf)
        · exact List.mem_append_right _ hf
      · exact fun f hf => List.mem_append_left _ (h.delivered hf)
      · intro hne
        by_cases hbefore : r.callbacks = 0
        · -- the callback is recorded by this call
          have hcount := Act.callbacks_next hallowed
          rw [hbefore] at hcount
          have hreceipts : act.receipts ≠ 0 := by
            intro hzero
            rw [hzero] at hcount
            exact hne (BitVec.toNat_inj.mp hcount)
          have hcallback : c.AcceptedCallback := by
            rw [hasks.receipts_eq] at hreceipts
            refine ⟨?_, ?_⟩
            · unfold Call.Accepted
              rw [hout]
              rfl
            · by_contra hno
              exact hreceipts (if_neg hno)
          obtain ⟨_, header, rfl, -⟩ := (asks_callback_iff hcallback.2).mp hasks
          obtain ⟨f, hf, hsome, hdelivered⟩ := hreceipt hcallback hallowed.1
          exact ⟨f, hhead hf, hsome, hdelivered⟩
        · obtain ⟨f, hf, hsome, hdelivered⟩ := h.confirmed hbefore
          exact ⟨f, hhead hf, hsome, hdelivered⟩
  | refused hrefused hout =>
      have hnothing : flights c.input.context.blockLt c.output = [] := by
        rw [hout]
        rfl
      rw [hnothing, List.append_nil, List.append_nil]
      exact ⟨r, rfl, h.forwards_eq, h.transfers, h.delivered, fun m hm => h.callbacks m (hcs hm),
        h.filled, h.confirmed⟩

omit [Target] [DecidableEq ι] in
/-- A forward is delivered, and contract B has taken it if it went there. -/
theorem Causal.Chained.arrived (h : n.Chained w r) {pre post : List Flight} {f : Flight}
    {cs : List InternalMessage} {P : InternalMessage → CallbackHeader → Prop}
    (htransfers : n.transfers = pre ++ f :: post)
    (hcallback : CallbackFor w.senderAddress f P cs) {inboxes : ι → Bytes}
    (hkept : ∀ g ∈ n.delivered, ∀ i, g.intent.destination = w.address i → Filled (inboxes i))
    (hfilled : ∀ i, f.intent.destination = w.address i → Filled (inboxes i)) :
    Causal.Chained w { n with
      inboxes := inboxes
      transfers := pre ++ post
      callbacks := n.callbacks ++ cs
      delivered := n.delivered ++ [f] } r := by
  refine ⟨h.state_eq, h.forwards_eq, fun g hg => h.transfers ?_, fun g hg => ?_,
    h.callbacks_append hcallback fun _ _ _ _ => by simp, fun g hg i hi => ?_, fun hne => ?_⟩
  · rw [htransfers]
    exact ((List.sublist_cons_self f post).append_left pre).subset hg
  · rcases List.mem_append.mp hg with hg | hg
    · exact h.delivered hg
    · rw [List.mem_singleton.mp hg]
      exact h.transfers (by simp [htransfers])
  · rcases List.mem_append.mp hg with hg | hg
    · exact hkept g hg i hi
    · rw [List.mem_singleton.mp hg] at hi
      exact hfilled i hi
  · obtain ⟨g, hg, hsome, hdelivered⟩ := h.confirmed hne
    exact ⟨g, hg, hsome, List.mem_append_left _ hdelivered⟩

/-- **One step** keeps the chain. -/
theorem Causal.Chained.step (h : n.Chained w r) (hstep : Causal.Step w n n') :
    ∃ r', n'.Chained w r' := by
  cases hstep with
  | call hcalls hplain =>
      exact h.called hcalls (List.Subset.refl _) fun hcallback => absurd hcallback.2 hplain
  | receive hwf hstate =>
      exact ⟨r, h.state_eq, h.forwards_eq, h.transfers, h.delivered, h.callbacks,
        fun f hf j hj => filled_update (h.filled f hf j hj) fun hij =>
          hij ▸ (h.filled f hf j hj).processed _, h.confirmed⟩
  | @deliver pre post f i x message cs htransfers haddress hwf hstate hmessage hdelivers haccepted
      hcallback =>
      refine ⟨r, h.arrived htransfers hcallback (fun g hg j hj => ?_) fun j hj => ?_⟩
      · exact filled_update (h.filled g hg j hj) fun _ => filled_of_accepted haccepted _
      · have hij : j = i := w.address_injective (hj.symm.trans haddress)
        rw [hij, Function.update_self]
        exact filled_of_accepted haccepted _
  | leave htransfers haway hcallback =>
      exact ⟨r, h.arrived htransfers hcallback h.filled fun i hi => absurd hi (haway i)⟩
  | @fail pre post f cs htransfers hcallback =>
      have hfailed := h.callbacks_append (d := []) hcallback fun _ _ hne hzero => absurd hzero hne
      rw [List.append_nil] at hfailed
      refine ⟨r, h.state_eq, h.forwards_eq, fun g hg => h.transfers ?_, h.delivered, hfailed, h.filled,
        h.confirmed⟩
      rw [htransfers]
      exact ((List.sublist_cons_self f post).append_left pre).subset hg
  | @answer pre post callback c a hcallbacks hcalls hmessage =>
      have hcs : pre ++ post ⊆ n.callbacks := by
        rw [hcallbacks]
        exact ((List.sublist_cons_self callback post).append_left pre).subset
      refine h.called hcalls hcs fun haccepted hone => ?_
      obtain ⟨f, header, hanswers, hdelivered⟩ := h.callbacks callback (by simp [hcallbacks])
      -- the callback reports a success, and there is only one forward that it can belong to
      have hzero : header.statusCode = 0 := by
        obtain ⟨t, hmove, -⟩ := hcalls.moves h.state_eq
        cases hmove with
        | refused hrefused => exact absurd haccepted.1 hrefused
        | act hasks =>
            obtain ⟨message, header', -, hconfirms⟩ := (asks_callback_iff haccepted.2).mp hasks
            have hsame := hconfirms.message_eq.symm.trans hmessage
            rw [CanonicalMessage.internal.injEq] at hsame
            have hheader := hconfirms.header
            rw [hsame, hanswers.header, Option.some.injEq] at hheader
            rw [hheader]
            exact hconfirms.status_eq
      have hlength : n.sent.length = 1 := by
        rw [← h.forwards_eq, hone]
        rfl
      obtain ⟨g, hg⟩ := List.length_eq_one_iff.mp hlength
      have hmem := h.delivered (hdelivered hzero)
      rw [hg, List.mem_singleton] at hmem
      refine ⟨g, by rw [hg]; rfl, ?_, hmem ▸ hdelivered hzero⟩
      rw [← hmem, hanswers.method_eq]
      rfl

/-- Before the first forward: a fresh account of contract A, and nothing on its way. -/
structure Causal.Opening (w : Setting ι) (start : MessageInput) (n : Causal ι) : Prop where
  starts : Account.Starts w.owner n.sender.version start n.sender
  transfers : n.transfers = []
  callbacks : n.callbacks = []
  sent : n.sent = []
  delivered : n.delivered = []

omit [DecidableEq ι] in
/-- The account starts with an empty record. -/
theorem Causal.Opening.chained {start : MessageInput} (h : n.Opening w start) :
    n.Chained w .empty := by
  have hstate : n.sender.state = Record.empty.encode := by
    obtain ⟨-, -, -, hstate⟩ := h.starts
    rw [hstate, Record.encode_empty]
    rfl
  refine ⟨hstate, ?_, ?_, ?_, ?_, ?_, fun hne => absurd rfl hne⟩
  · rw [h.sent]
    rfl
  · rw [h.transfers]
    exact List.nil_subset _
  · rw [h.delivered]
    exact List.nil_subset _
  · rw [h.callbacks]
    exact List.forall_mem_nil _
  · rw [h.delivered]
    exact List.forall_mem_nil _

/-- **A recorded callback is true.** Over every schedule of calls, deliveries and failures: the first
counter of contract A is the number of messages that it sent; and if it has recorded a callback, the
first of them was delivered and accepted, with the callback that it asked for, and if it went to a
contract B then that contract has taken something. -/
theorem causal_confirmed {start : MessageInput} (hopening : n.Opening w start)
    (hreach : Relation.ReflTransGen (Causal.Step w) n n') :
    ∃ r : Record, n'.sender.state = r.encode ∧ r.forwards.toNat = n'.sent.length ∧
      (r.callbacks ≠ 0 → ∃ f ∈ n'.sent.head?, f.handler.isSome ∧ f ∈ n'.delivered ∧
        ∀ i, f.intent.destination = w.address i → Filled (n'.inboxes i)) := by
  have hchained : ∃ r, n'.Chained w r := by
    induction hreach with
    | refl => exact ⟨_, hopening.chained⟩
    | tail _ hstep ih =>
        obtain ⟨r, hr⟩ := ih
        exact hr.step hstep
  obtain ⟨r, hr⟩ := hchained
  refine ⟨r, hr.state_eq, hr.forwards_eq, fun hne => ?_⟩
  obtain ⟨f, hf, hsome, hdelivered⟩ := hr.confirmed hne
  exact ⟨f, hf, hsome, hdelivered, hr.filled f hdelivered⟩

/-! ## The round trip of a forward -/

section

variable {v v' : Version} {x y z : MessageInput} {args : ForwardArgs} {r t : Record} {s : Inbox}
  {payer : AccountAddress} {message callback : InternalMessage} {header : CallbackHeader}
  {f : Flight} {owner : Bytes32}

omit [Target] [DecidableEq ι] in
/-- The message that a forward sends. -/
theorem flights_forward (hf : f ∈ flights x.context.blockLt ((Act.forward args).output v x r)) :
    f.intent = forwarded args (Act.fee x args v) outboundBody ∧
      (f.handler.isSome ↔ args.callbackMethodId ≠ 0) := by
  have hflight : f = ⟨forwarded args (Act.fee x args v) outboundBody,
      (((Act.forward args).requests).find? fun c => c.outboundIndex.toNat = 0).map
        CallbackIntent.handlerMethodId, x.context.blockLt⟩ := List.mem_singleton.mp hf
  refine ⟨by rw [hflight], ?_⟩
  rw [hflight]
  by_cases hzero : args.callbackMethodId = 0 <;> simp [Act.requests, hzero]

omit [Target] [DecidableEq ι] in
/-- A handler answers with success exactly when it succeeds. -/
theorem statusCode_eq_zero_iff {result : Except U32 MessageOutput} (h : Raises result ErrorCode)
    (hok : ∀ out, result = .ok out → out.statusCode = 0) :
    (orFailure result).statusCode = 0 ↔ ∃ out, result = .ok out := by
  constructor
  · exact exists_ok_of_statusCode (raises_ne_zero h)
  · rintro ⟨out, hout⟩
    rw [hout]
    exact hok out hout

/-- What contract B is asked for. -/
def takenOf (payer : AccountAddress) (args : ForwardArgs) : Taken :=
  if args.methodId = drainMethodId then .drain payer else .delivery payer args.methodId

omit [DecidableEq ι] in
/-- A delivered forward asks for one act, if it asks for a callback, and for nothing else. -/
theorem asks_delivered_iff
    (hf : f ∈ flights x.context.blockLt ((Act.forward args).output v x r)) (hwf : y.WellFormed)
    (hmessage : y.message = .internal message) (hdelivers : Delivers payer f message)
    (hreads : message.eventReads = none) {act : Taken} :
    ContractB.Asks y act ↔ args.callbackMethodId ≠ 0 ∧ act = takenOf payer args := by
  obtain ⟨hintent, hhandler⟩ := flights_forward hf
  have hmwf : message.WellFormed := by
    have hwf' := hwf.message_ok
    rw [hmessage] at hwf'
    exact hwf'
  have hcaller : y.caller = .internal payer := by
    rw [hwf.caller_eq, hmessage, ← hdelivers.source_eq]
    rfl
  have hnone : eventReads y.message = none := by
    rw [hmessage]
    exact hreads
  have hrequest : y.message.hasCallbackRequest ↔ args.callbackMethodId ≠ 0 := by
    rw [hmessage, ← hhandler, ← hdelivers.handler_eq]
    exact hmwf.handler_isSome.symm
  have hmethod : y.message.methodId = args.methodId := by
    rw [hmessage]
    exact hdelivers.methodId_eq.trans (congrArg OutboundIntent.methodId hintent)
  have hextra : y.message.extra.items = forwardExtra := by
    rw [hmessage]
    exact hdelivers.extra_eq.trans (congrArg OutboundIntent.extra hintent)
  have hbody : y.message.body = outboundBody := by
    rw [hmessage]
    exact hdelivers.body_eq.trans (congrArg OutboundIntent.body hintent)
  have hsource {source : AccountAddress} (h : Brings y source) : source = payer :=
    Caller.internal.inj (h.caller.symm.trans hcaller)
  unfold takenOf
  constructor
  · intro hasks
    cases hasks with
    | delivery brings hother =>
        rw [hmethod] at hother ⊢
        rw [if_neg hother, hsource brings]
        exact ⟨hrequest.mp brings.request, rfl⟩
    | drain brings hdrain =>
        rw [hmethod] at hdrain
        rw [if_pos hdrain, hsource brings]
        exact ⟨hrequest.mp brings.request, rfl⟩
    | read reads =>
        obtain ⟨_, hno, -⟩ := reads.requests
        cases hnone.symm.trans hno
  · rintro ⟨hcallback, rfl⟩
    have hbrings : Brings y payer := ⟨hcaller, hnone, hextra, hbody, hrequest.mpr hcallback⟩
    by_cases hdrain : args.methodId = drainMethodId
    · rw [if_pos hdrain]
      exact .drain hbrings (hmethod.trans hdrain)
    · rw [if_neg hdrain, ← hmethod]
      exact .delivery hbrings fun hno => hdrain (hmethod.symm.trans hno)

omit [DecidableEq ι] in
/-- When contract B accepts a forward, and what it answers. -/
theorem delivery_accepted_iff
    (hf : f ∈ flights x.context.blockLt ((Act.forward args).output v x r)) (hwf : y.WellFormed)
    (hstate : y.state = s.encode) (hmessage : y.message = .internal message)
    (hdelivers : Delivers payer f message) (hreads : message.eventReads = none) :
    ((contractB.processMessage y).statusCode = 0 ↔ args.callbackMethodId ≠ 0 ∧
      (takenOf payer args).Allowed s) ∧
    ((contractB.processMessage y).statusCode = 0 →
      (contractB.processMessage y).callbackResultBody = callbackBody) := by
  have hanswer : contractB.processMessage y = orFailure (process y) := rfl
  have hok {out : MessageOutput} : process y = .ok out ↔
      (args.callbackMethodId ≠ 0 ∧ (takenOf payer args).Allowed s) ∧
        ∃ es, (takenOf payer args).events y s = .ok es ∧
          out = (takenOf payer args).output y s es := by
    rw [process_ok_iff]
    constructor
    · rintro ⟨u, act, es, hu, hasks, hallowed, hes, rfl⟩
      obtain rfl := Inbox.encode_injective (hstate.symm.trans hu)
      obtain ⟨hcallback, rfl⟩ := (asks_delivered_iff hf hwf hmessage hdelivers hreads).mp hasks
      exact ⟨⟨hcallback, hallowed⟩, es, hes, rfl⟩
    · rintro ⟨⟨hcallback, hallowed⟩, es, hes, rfl⟩
      exact ⟨s, _, es, hstate,
        (asks_delivered_iff hf hwf hmessage hdelivers hreads).mpr ⟨hcallback, rfl⟩, hallowed, hes, rfl⟩
  have hsuccess : (contractB.processMessage y).statusCode = 0 ↔ ∃ out, process y = .ok out :=
    statusCode_eq_zero_iff raises_process fun out hout => by
      obtain ⟨-, es, -, rfl⟩ := hok.mp hout
      rfl
  refine ⟨?_, fun hzero => ?_⟩
  · rw [hsuccess]
    constructor
    · rintro ⟨out, hout⟩
      exact (hok.mp hout).1
    · intro hallowed
      obtain ⟨es, hes⟩ := exists_events y s (takenOf payer args)
      exact ⟨_, hok.mpr ⟨hallowed, es, hes, rfl⟩⟩
  · obtain ⟨out, hout⟩ := hsuccess.mp hzero
    obtain ⟨-, es, -, rfl⟩ := hok.mp hout
    rw [hanswer, hout]
    unfold takenOf
    split_ifs <;> rfl

omit [DecidableEq ι] in
/-- **The round trip of a forward.** Contract B accepts what contract A forwards if a callback was
requested, and if the state of B allows it: a drain exactly after one delivery, anything else as long
as there is room to count it. Either version of contract A then accepts the callback if B accepted,
and if A has sent nothing else and recorded nothing. -/
theorem round_trip (hf : f ∈ flights x.context.blockLt ((Act.forward args).output v x r))
    (hwf : y.WellFormed) (hstate : y.state = s.encode) (hmessage : y.message = .internal message)
    (hdelivers : Delivers payer f message) (hreads : message.eventReads = none)
    (hwf' : z.WellFormed) (hstate' : z.state = t.encode) (hmessage' : z.message = .internal callback)
    (hanswers : CallbackOf payer f [] callback header)
    (hstatus : header.statusCode = (contractB.processMessage y).statusCode)
    (hbody : callback.body = (contractB.processMessage y).callbackResultBody)
    (hresults : z.internalEventResults = toLe (0 : U32)) :
    ((contractB.processMessage y).statusCode = 0 ↔ args.callbackMethodId ≠ 0 ∧
      if args.methodId = drainMethodId then s.count = 1 else s.count.toNat + 1 < 2 ^ 64) ∧
    (((contractA owner v').processMessage z).statusCode = 0 ↔
      (contractB.processMessage y).statusCode = 0 ∧ t.forwards = 1 ∧ t.Blank) := by
  obtain ⟨haccepted, hresult⟩ := delivery_accepted_iff hf hwf hstate hmessage hdelivers hreads
  refine ⟨?_, ?_⟩
  · rw [haccepted]
    unfold takenOf
    split_ifs <;> exact Iff.rfl
  · obtain ⟨hreturns, hplain⟩ := hanswers.returns hwf' hmessage'
    have hsuccess : ((contractA owner v').processMessage z).statusCode = 0 ↔
        ∃ out, v'.process owner z = .ok out :=
      statusCode_eq_zero_iff Version.raises_process fun out hout => by
        obtain ⟨_, _, -, -, -, rfl⟩ := Version.process_ok_iff.mp hout
        rfl
    rw [hsuccess, ← hstatus]
    constructor
    · rintro ⟨out, hout⟩
      obtain ⟨u, act, hu, hasks, hallowed, rfl⟩ := Version.process_ok_iff.mp hout
      obtain rfl := Record.encode_injective (hstate'.symm.trans hu)
      obtain ⟨m, h, rfl, hconfirms⟩ := (asks_callback_iff hreturns.is_callback).mp hasks
      have hsame : m = callback :=
        CanonicalMessage.internal.inj (hconfirms.message_eq.symm.trans hmessage')
      have hheader := hconfirms.header
      rw [hsame, hanswers.header, Option.some.injEq] at hheader
      refine ⟨?_, hallowed⟩
      rw [hheader]
      exact hconfirms.status_eq
    · rintro ⟨hzero, hallowed⟩
      have hdestination : header.causeAddress = z.destination := by
        rw [hanswers.cause_eq, ← hwf'.destination_eq, hmessage']
        exact hanswers.destination_eq.symm
      have hconfirms : Confirms z callback header :=
        ⟨hmessage', ⟨_, hreturns.caller⟩, hanswers.header, hplain, hzero, hdestination,
          hbody.trans (hresult (hstatus.symm.trans hzero)), hresults⟩
      exact ⟨_, Version.process_ok_iff.mpr
        ⟨t, _, hstate', .receipt hreturns.is_callback hconfirms, hallowed, rfl⟩⟩

end

end

/-! ## A forward that comes back -/

section

local instance : Target := Target.wasm32

/-- One account of contract B, to which the forward goes. -/
def sampleSetting : Setting Unit :=
  ⟨fixturePackageOwnerPubkey, sampleCodes, sampleSender, fun _ => sampleArgs.destination, fun _ _ _ => rfl⟩

/-- Before the forward. -/
def sampleOpening : Causal Unit :=
  ⟨⟨.v1, Record.empty.encode⟩, fun _ => Inbox.empty.encode, [], [], [], []⟩

/-- The forward. -/
def sampleForward : Flight := ⟨forwarded sampleArgs 0 outboundBody, some 8, 0⟩

/-- It is on its way, -/
def sampleSent : Causal Unit :=
  ⟨⟨.v1, sampleForwarded.encode⟩, sampleOpening.inboxes, [sampleForward], [], [sampleForward], []⟩

/-- it was delivered, -/
def sampleArrived : Causal Unit :=
  ⟨⟨.v1, sampleForwarded.encode⟩, Function.update sampleOpening.inboxes ()
    ((contractB.processMessage (sampleDelivery .empty)).nextState Inbox.empty.encode), [],
    [sampleCallback], [sampleForward], [sampleForward]⟩

/-- and its callback came back. -/
def sampleReturned : Causal Unit :=
  ⟨⟨.v1, sampleReceived.encode⟩, sampleArrived.inboxes, [], [], [sampleForward], [sampleForward]⟩

/-- The forward goes out, -/
theorem sampleForward_mem : sampleForward ∈ flights sampleForwardInput.context.blockLt
    ((Act.forward sampleArgs).output .v1 sampleForwardInput .empty) :=
  List.mem_singleton.mpr rfl

/-- is delivered, -/
theorem sampleForward_delivers : Delivers sampleSender sampleForward
    (sampleMessage 7 internalFlagCallbackRequest (some 8) none forwardExtra outboundBody) := by
  refine ⟨rfl, rfl, rfl, rfl, CurrencyAmounts.items_ofEntries ?_, rfl, rfl⟩
  decide

/-- and is answered. -/
theorem sampleCallback_answers :
    CallbackOf sampleSender sampleForward [] sampleCallback sampleHeader :=
  ⟨rfl, rfl, rfl, rfl, rfl, by decide, List.forall_mem_nil _⟩

/-- The recipient accepts it and returns the expected body. -/
theorem sampleDelivery_accepted : (contractB.processMessage (sampleDelivery .empty)).statusCode = 0 ∧
    (contractB.processMessage (sampleDelivery .empty)).callbackResultBody = callbackBody := by
  have haccepted := delivery_accepted_iff sampleForward_mem sampleDelivery_wellFormed
    (s := .empty) rfl rfl sampleForward_delivers rfl
  have hroom : Inbox.empty.count.toNat + 1 < 2 ^ 64 := by decide
  have hzero := haccepted.1.mpr ⟨by decide, hroom⟩
  exact ⟨hzero, haccepted.2 hzero⟩

/-- The sample starts before the first forward. -/
theorem sampleOpening_opens : sampleOpening.Opening sampleSetting
    (sampleCall (sampleAddress 1).dappId true [] 0 []) :=
  ⟨sampleStart, rfl, rfl, rfl, rfl⟩

/-- The run: the forward, its delivery, and the callback. -/
theorem sampleReturned_reached :
    Relation.ReflTransGen (Causal.Step sampleSetting) sampleOpening sampleReturned := by
  have hcall : Causal.Step sampleSetting sampleOpening sampleSent :=
    .call (c := sampleFirst) (a := ⟨.v1, sampleForwarded.encode⟩) sampleFirst_calls fun hno => hno
  have hsent : sampleSent.transfers = [] ++ sampleForward :: [] := rfl
  have hdeliver : Causal.Step sampleSetting sampleSent sampleArrived :=
    .deliver (i := ()) (x := sampleDelivery .empty) hsent rfl sampleDelivery_wellFormed rfl rfl
      sampleForward_delivers sampleDelivery_accepted.1
      (.some sampleCallback_answers ⟨rfl, sampleDelivery_accepted.2.symm⟩)
  have harrived : sampleArrived.callbacks = [] ++ sampleCallback :: [] := rfl
  have hanswer : Causal.Step sampleSetting sampleArrived sampleReturned :=
    .answer (n := sampleArrived) (c := sampleSecond) harrived sampleSecond_calls rfl
  exact ((Relation.ReflTransGen.single hcall).tail hdeliver).tail hanswer

end

/-- The callback of the forward is true. -/
theorem causal_confirmed_sample :
    letI := Target.wasm32
    ∃ r : Record, sampleReturned.sender.state = r.encode ∧
      r.forwards.toNat = sampleReturned.sent.length ∧
      (r.callbacks ≠ 0 → ∃ f ∈ sampleReturned.sent.head?, f.handler.isSome ∧
        f ∈ sampleReturned.delivered ∧ ∀ i, f.intent.destination = sampleSetting.address i →
          Filled (sampleReturned.inboxes i)) := by
  let _ := Target.wasm32
  exact causal_confirmed sampleOpening_opens sampleReturned_reached

/-- The forward makes its round trip. -/
theorem round_trip_sample :
    letI := Target.wasm32
    ((contractB.processMessage (sampleDelivery .empty)).statusCode = 0 ↔ sampleArgs.callbackMethodId ≠ 0 ∧
      if sampleArgs.methodId = drainMethodId then Inbox.empty.count = 1
        else Inbox.empty.count.toNat + 1 < 2 ^ 64) ∧
    (((contractA fixturePackageOwnerPubkey .v1).processMessage sampleReceipt).statusCode = 0 ↔
      (contractB.processMessage (sampleDelivery .empty)).statusCode = 0 ∧ sampleForwarded.forwards = 1 ∧
        sampleForwarded.Blank) := by
  let _ := Target.wasm32
  have hwf : sampleReceipt.WellFormed := sampleSecond_calls.1.1
  exact round_trip sampleForward_mem sampleDelivery_wellFormed rfl rfl sampleForward_delivers rfl
    hwf rfl rfl sampleCallback_answers sampleDelivery_accepted.1.symm sampleDelivery_accepted.2.symm rfl

end AvmSdk.Forward
