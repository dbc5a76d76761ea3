import AvmSdk.Contracts.Handler
import Mathlib.Logic.Relation

/-!
# A payer and its receivers

One account that pays and the accounts that it pays to, with the messages on their way between them.
What the host promises is in the steps: a transfer is delivered at most once, and its delivery puts
exactly one callback on its way. Everything else may happen in any order.

* `Network`, `Accounts.Step`: the configurations and the steps.
* `Lanes`: how the state of the payer is seen by one receiver, its *lane*. `Lanes.Lawful`: what the
  two contracts must do for it.
* `Phase`: a lane is idle, or has one transfer or one callback on its way. `Lanes.Coherent`, and
  `Lanes.Lawful.coherent`: so it is in every configuration that can be reached.
-/

namespace AvmSdk.Contracts

open Wire Sdk

/-! ## Messages on their way -/

/-- A transfer on its way: what was emitted, which method takes the callback, and when. -/
structure Flight where
  /-- The message. -/
  intent : OutboundIntent
  /-- The method that takes the callback, if one was requested. -/
  handler : Option U64
  /-- The logical time of the block that emitted it. -/
  blockLt : U64

/-- The principal that a transfer carries. -/
def Flight.amount (f : Flight) : ℕ := amountOf principalCurrencyId f.intent.extra

/-- The transfers that an answer emits. -/
def flights (blockLt : U64) (output : MessageOutput) : List Flight :=
  output.outboundIntents.zipIdx.map fun p =>
    ⟨p.1, (output.callbackIntents.find? fun c => c.outboundIndex.toNat = p.2).map
      CallbackIntent.handlerMethodId, blockLt⟩

/-- The transfer of a step, if it has one. -/
theorem flights_of_transfer {blockLt : U64} {output : MessageOutput} {o : Option Transfer}
    (hout : output.outboundIntents = (o.map Transfer.intent).toList)
    (hcallbacks : output.callbackIntents =
      (o.map fun transfer => CallbackIntent.mk 0 transfer.handler).toList) :
    flights blockLt output =
      (o.map fun transfer => Flight.mk transfer.intent (some transfer.handler) blockLt).toList := by
  unfold flights
  rw [hout, hcallbacks]
  cases o <;> rfl

section

variable [Target]

/-- The message delivers a transfer: from the payer, with exactly what was emitted, and with the
callback request. -/
structure Delivers (payer : AccountAddress) (f : Flight) (message : InternalMessage) : Prop where
  source_eq : message.source = payer
  destination_eq : message.destination = f.intent.destination
  methodId_eq : message.methodId = f.intent.methodId
  body_eq : message.body = f.intent.body
  extra_eq : message.extra.items = f.intent.extra
  callback_eq : message.callback = none
  handler_eq : message.callbackHandlerMethodId = f.handler

/-- The message is the callback of a transfer, with a hash that none of the given ones has. -/
structure CallbackOf (payer : AccountAddress) (f : Flight) (earlier : List InternalMessage)
    (message : InternalMessage) (h : CallbackHeader) : Prop where
  source_eq : message.source = f.intent.destination
  destination_eq : message.destination = payer
  method_eq : f.handler = some message.methodId
  header : message.callback = some h
  cause_eq : h.causeAddress = payer
  hash_ne_zero : h.causeMsgHash ≠ zeros 32
  hash_fresh : ∀ e ∈ earlier, ∀ h' ∈ e.callback, h'.causeMsgHash ≠ h.causeMsgHash

/-- The message was created after a transfer, and after the given messages. -/
structure CreatedAfter (f : Flight) (earlier : List InternalMessage) (message : InternalMessage) :
    Prop where
  after : f.blockLt < message.createdLt
  later : ∀ e ∈ earlier, e.createdLt < message.createdLt

/-- A callback message in the words of a handler. -/
theorem CallbackOf.returns {payer : AccountAddress} {f : Flight} {earlier : List InternalMessage}
    {message : InternalMessage} {h : CallbackHeader} {x : MessageInput}
    (hanswers : CallbackOf payer f earlier message h) (hwf : x.WellFormed)
    (hmessage : x.message = .internal message) :
    Returns x message.source message h ∧
      ¬ (CanonicalMessage.internal message).hasCallbackRequest := by
  have hmwf : message.WellFormed := by
    have hwf' := hwf.message_ok
    rw [hmessage] at hwf'
    exact hwf'
  have hflag : message.flags &&& internalFlagCallback ≠ 0 := by
    rw [← hmwf.callback_isSome, hanswers.header]
    rfl
  refine ⟨⟨?_, ?_, hmessage, hanswers.header⟩, ?_⟩
  · rw [hmessage]
    exact hflag
  · rw [hwf.caller_eq, hmessage]
    rfl
  · have hflags := hmwf.flags_ok.2 hflag
    rw [BitVec.and_or_distrib_left] at hflags
    exact fun hno => hno (BitVec.or_eq_zero_iff.mp hflags).2

section

variable {payer : AccountAddress} {f : Flight} {earlier : List InternalMessage}
  {message : InternalMessage} {h : CallbackHeader} {lastLt : U64}

omit [Target] in
/-- The method that takes a callback. -/
theorem CallbackOf.methodId_eq {method : U64} (hanswers : CallbackOf payer f earlier message h)
    (hhandler : f.handler = some method) : message.methodId = method :=
  Option.some.inj (hanswers.method_eq.symm.trans hhandler)

omit [Target] in
/-- The hash of a callback is not the one that was stored, of a callback before or none. -/
theorem CallbackOf.hash_ne_of_known {lastHash : Bytes32}
    (hanswers : CallbackOf payer f earlier message h)
    (hknown : lastHash = zeros 32 ∨ ∃ c ∈ earlier, ∃ h' ∈ c.callback, h'.causeMsgHash = lastHash) :
    h.causeMsgHash ≠ lastHash := by
  rcases hknown with rfl | ⟨c, hc, h', hh', rfl⟩
  · exact hanswers.hash_ne_zero
  · exact (hanswers.hash_fresh c hc h' hh').symm

omit [Target] in
/-- A callback is created after the time that was stored, of a callback before or none. -/
theorem CreatedAfter.later_of_known (hordered : CreatedAfter f earlier message)
    (hknown : lastLt = 0 ∨ ∃ c ∈ earlier, c.createdLt = lastLt) : lastLt < message.createdLt := by
  rcases hknown with rfl | ⟨c, hc, rfl⟩
  · exact BitVec.lt_def.mpr ((Nat.zero_le _).trans_lt (BitVec.lt_def.mp hordered.after))
  · exact hordered.later c hc

omit [Target] in
/-- A callback is created after both the transfer and the time that was stored. -/
theorem CreatedAfter.after_of_known (hordered : CreatedAfter f earlier message)
    (hknown : lastLt = 0 ∨ ∃ c ∈ earlier, c.createdLt = lastLt) :
    wordMax f.blockLt lastLt < message.createdLt := by
  unfold wordMax
  split_ifs
  · exact hordered.later_of_known hknown
  · exact hordered.after

omit [Target] in
/-- A receiver that is bound to the payer or to no account stays so, if it is only bound to the
payer. -/
theorem bound_of_binds {bound bound' : AccountAddress} {x : MessageInput} {bind : U64}
    (hbound : bound = zeroAddress ∨ bound = payer)
    (hbinds : x.message.methodId = bind → x.message.body = payer.toBytes)
    (hnext : bound' = bound ∨ x.message.methodId = bind ∧ x.message.body = bound'.toBytes) :
    bound' = zeroAddress ∨ bound' = payer := by
  rcases hnext with rfl | ⟨hmethod, hbody⟩
  · exact hbound
  · have heq : bound'.toBytes = payer.toBytes := hbody.symm.trans (hbinds hmethod)
    exact .inr (AccountAddress.toBytes_injective heq)

/-- A message comes from an account that exists. -/
theorem not_isZeroAddress_of_caller {x : MessageInput} {source : AccountAddress}
    (hwf : x.WellFormed) (hcaller : x.caller = .internal source)
    (hmessage : x.message = .internal message) : ¬ isZeroAddress source := by
  have hmwf : message.WellFormed := by
    have hok := hwf.message_ok
    rw [hmessage] at hok
    exact hok
  have hsource : source = message.source := by
    have hsender := hwf.caller_eq
    rw [hcaller, hmessage] at hsender
    exact Caller.internal.inj hsender
  rw [hsource]
  exact hmwf.source_ne_zero

omit [Target] in
/-- A message of an account that is not the payer does not come from what a receiver is bound to. -/
theorem ne_bound_of_other {bound source : AccountAddress} {x : MessageInput}
    (hbound : bound = zeroAddress ∨ bound = payer) (hcaller : x.caller = .internal source)
    (hother : x.caller ≠ .internal payer) (hsource : source.dappId ≠ zeros 32) :
    source ≠ bound := by
  rintro rfl
  rcases hbound with rfl | rfl
  · exact hsource rfl
  · exact hother hcaller

end

/-- The callback reports a success, with a result and perhaps SHELL. -/
structure ReportsSuccess (message : InternalMessage) (h : CallbackHeader) (result : Bytes) :
    Prop where
  status_eq : h.statusCode = 0
  body_eq : message.body = result
  currencies : ∀ c ∈ message.extra.items, c.currencyId = shellCurrencyId

/-- The callback reports a failure, with the whole principal and perhaps SHELL. -/
structure ReportsFailure (f : Flight) (message : InternalMessage) (h : CallbackHeader) : Prop where
  status_ne : h.statusCode ≠ 0
  body_eq : message.body = []
  currencies : ∀ c ∈ message.extra.items,
    c.currencyId = principalCurrencyId ∨ c.currencyId = shellCurrencyId
  amount_eq : amountOf principalCurrencyId message.extra.items = f.amount

/-! ## Configurations -/

/-- A configuration: the states of the accounts, and the messages on their way. -/
structure Network (ι : Type) where
  /-- The state of the payer. -/
  payer : Bytes
  /-- The states of the receivers. -/
  receivers : ι → Bytes
  /-- The transfers on their way. -/
  transfers : List Flight
  /-- The callbacks on their way. -/
  callbacks : List InternalMessage
  /-- All callbacks that were created so far. -/
  created : List InternalMessage

/-- The accounts of a network, and which calls the owners of the receivers make. -/
structure Accounts (ι : Type) where
  /-- The contract that pays. -/
  payer : Contract
  /-- Its account. -/
  payerAddress : AccountAddress
  /-- The contract that receives. -/
  receiver : Contract
  /-- The accounts of the receivers. -/
  address : ι → AccountAddress
  /-- The calls that the receivers get from others than the payer. -/
  Allowed : MessageInput → Prop
  /-- What else the host promises of the callback of a transfer, if the given ones came before. -/
  Promised : Flight → List InternalMessage → InternalMessage → Prop

variable {ι : Type} [DecidableEq ι]

/-- The message is the callback of a transfer, with all that the host promises. -/
structure Accounts.Answers (a : Accounts ι) (f : Flight) (earlier : List InternalMessage)
    (message : InternalMessage) (h : CallbackHeader) : Prop extends
    CallbackOf a.payerAddress f earlier message h where
  promised : a.Promised f earlier message

/-- **The steps of a network.** -/
inductive Accounts.Step (a : Accounts ι) (n : Network ι) : Network ι → Prop
  /-- The payer gets any message that is no callback. -/
  | call {x : MessageInput} (wellFormed : x.WellFormed) (state_eq : x.state = n.payer)
      (destination_eq : x.destination = a.payerAddress) (plain : ¬ x.message.isCallback) :
      Step a n { n with
        payer := (a.payer.processMessage x).nextState n.payer
        transfers := n.transfers ++ flights x.context.blockLt (a.payer.processMessage x) }
  /-- A receiver gets a message from someone else. -/
  | manage {i : ι} {x : MessageInput} (wellFormed : x.WellFormed) (state_eq : x.state = n.receivers i)
      (destination_eq : x.destination = a.address i)
      (other : x.caller ≠ .internal a.payerAddress) (allowed : a.Allowed x) :
      Step a n { n with
        receivers := Function.update n.receivers i
          ((a.receiver.processMessage x).nextState (n.receivers i)) }
  /-- A transfer is delivered and accepted: its callback carries the result. -/
  | deliver {pre post : List Flight} {f : Flight} {i : ι} {x : MessageInput}
      {message callback : InternalMessage} {h : CallbackHeader}
      (transfers_eq : n.transfers = pre ++ f :: post)
      (address_eq : f.intent.destination = a.address i) (wellFormed : x.WellFormed)
      (state_eq : x.state = n.receivers i) (message_eq : x.message = .internal message)
      (delivers : Delivers a.payerAddress f message)
      (accepted : (a.receiver.processMessage x).statusCode = 0)
      (answers : a.Answers f n.created callback h)
      (success : ReportsSuccess callback h (a.receiver.processMessage x).callbackResultBody) :
      Step a n { n with
        receivers := Function.update n.receivers i
          ((a.receiver.processMessage x).nextState (n.receivers i))
        transfers := pre ++ post
        callbacks := n.callbacks ++ [callback]
        created := n.created ++ [callback] }
  /-- A transfer fails, for any reason: its callback brings the principal back. -/
  | fail {pre post : List Flight} {f : Flight} {callback : InternalMessage} {h : CallbackHeader}
      (transfers_eq : n.transfers = pre ++ f :: post)
      (answers : a.Answers f n.created callback h)
      (failure : ReportsFailure f callback h) :
      Step a n { n with
        transfers := pre ++ post
        callbacks := n.callbacks ++ [callback]
        created := n.created ++ [callback] }
  /-- A callback is delivered. -/
  | answer {pre post : List InternalMessage} {callback : InternalMessage} {x : MessageInput}
      (callbacks_eq : n.callbacks = pre ++ callback :: post) (wellFormed : x.WellFormed)
      (state_eq : x.state = n.payer) (destination_eq : x.destination = a.payerAddress)
      (message_eq : x.message = .internal callback) :
      Step a n { n with
        payer := (a.payer.processMessage x).nextState n.payer
        transfers := n.transfers ++ flights x.context.blockLt (a.payer.processMessage x)
        callbacks := pre ++ post }

/-- A message that is no callback, if the payer answers it with a state, an event and perhaps a
transfer. -/
theorem Accounts.step_of_answer {a : Accounts ι} {n : Network ι} {x : MessageInput} {next : Bytes}
    {e : EventIntent} {o : Option Transfer} (hout : a.payer.processMessage x = answer next e o)
    (hwf : x.WellFormed) (hstate : x.state = n.payer) (hdestination : x.destination = a.payerAddress)
    (hplain : ¬ x.message.isCallback) :
    a.Step n { n with
      payer := next
      transfers := n.transfers ++
        (o.map fun transfer => Flight.mk transfer.intent (some transfer.handler)
          x.context.blockLt).toList } := by
  have hcall := Accounts.Step.call (n := n) hwf hstate hdestination hplain
  have hflights : flights x.context.blockLt (answer next e o) =
      (o.map fun transfer => Flight.mk transfer.intent (some transfer.handler)
        x.context.blockLt).toList :=
    flights_of_transfer (outboundIntents_answer next e o) (callbackIntents_answer next e o)
  rw [hout, nextState_answer, hflights] at hcall
  exact hcall

/-! ## Lanes -/

/-- How the state of the payer is seen by one receiver. -/
structure Lanes (a : Accounts ι) (S L : Type) where
  /-- The bytes of a state. -/
  encode : S → Bytes
  /-- The states that are stored. -/
  Stored : S → Prop
  /-- The part of the state that one receiver sees. -/
  lane : S → ι → L
  /-- No payment is under way. -/
  Idle : L → Prop
  /-- A payment is under way, with this transfer. -/
  Open : ι → L → Flight → Prop
  /-- What was paid and confirmed. -/
  settled : L → ℕ
  /-- The lane knows no other callbacks than these. -/
  Known : L → List InternalMessage → Prop
  /-- A receiver in this state has received this much. -/
  Ready : ι → Bytes → ℕ → Prop

variable {a : Accounts ι} {S L : Type}

/-- A message of the payer to no lane, or to one that was idle. -/
inductive Lanes.Emits (k : Lanes a S L) (s t : S) : List Flight → Prop
  /-- Nothing is sent. -/
  | nothing (same : k.lane t = k.lane s) : Emits k s t []
  /-- One transfer is sent. -/
  | transfer {i : ι} {f : Flight} (idle : k.Idle (k.lane s i)) (opened : k.Open i (k.lane t i) f)
      (settled_eq : k.settled (k.lane t i) = k.settled (k.lane s i))
      (known : ∀ cs, k.Known (k.lane s i) cs → k.Known (k.lane t i) cs)
      (others : ∀ j, j ≠ i → k.lane t j = k.lane s j) : Emits k s t [f]

/-- A lane while another one is answered: it is the same, or idle before and after. -/
inductive Lanes.Aside (k : Lanes a S L) (created : List InternalMessage) (l l' : L) : Prop
  /-- Nothing changes. -/
  | same (eq : l' = l)
  /-- The lane only takes note of the callback. -/
  | idle (before : k.Idle l) (after : k.Idle l') (settled_eq : k.settled l' = k.settled l)
      (known : k.Known l' created)

/-- A lane after its callback: it is idle again, and the amount is settled if the callback reports a
success. -/
structure Lanes.Answered (k : Lanes a S L) (i : ι) (f : Flight) (earlier : List InternalMessage)
    (message : InternalMessage) (h : CallbackHeader) (s t : S) : Prop where
  idle : k.Idle (k.lane t i)
  settled_eq : k.settled (k.lane t i) =
    k.settled (k.lane s i) + if h.statusCode = 0 then f.amount else 0
  known : k.Known (k.lane t i) (earlier ++ [message])
  others : ∀ j, j ≠ i → k.Aside (earlier ++ [message]) (k.lane s j) (k.lane t j)

/-- **What the two contracts must do.** -/
structure Lanes.Lawful (k : Lanes a S L) : Prop where
  address_injective : Function.Injective a.address
  not_idle : ∀ i l f, k.Open i l f → ¬ k.Idle l
  destination_eq : ∀ i l f, k.Open i l f → f.intent.destination = a.address i
  known_mono : ∀ l cs cs', cs ⊆ cs' → k.Known l cs → k.Known l cs'
  call : ∀ (s : S) (x : MessageInput), k.Stored s → x.WellFormed → x.state = k.encode s →
    x.destination = a.payerAddress → ¬ x.message.isCallback →
      ∃ t, k.Stored t ∧ (a.payer.processMessage x).nextState x.state = k.encode t ∧
        k.Emits s t (flights x.context.blockLt (a.payer.processMessage x))
  answer : ∀ (s : S) (x : MessageInput) (i : ι) f earlier message h, k.Stored s → x.WellFormed →
    x.state = k.encode s → x.destination = a.payerAddress → x.message = .internal message →
    k.Open i (k.lane s i) f → k.Known (k.lane s i) earlier →
    a.Answers f earlier message h →
    ReportsSuccess message h f.intent.body ∨ ReportsFailure f message h →
      (a.payer.processMessage x).statusCode = 0 ∧
      flights x.context.blockLt (a.payer.processMessage x) = [] ∧
      ∃ t, k.Stored t ∧ (a.payer.processMessage x).nextState x.state = k.encode t ∧
        k.Answered i f earlier message h s t
  manage : ∀ (i : ι) (x : MessageInput) v, k.Ready i x.state v → x.WellFormed →
    x.destination = a.address i → x.caller ≠ .internal a.payerAddress → a.Allowed x →
      k.Ready i ((a.receiver.processMessage x).nextState x.state) v
  deliver : ∀ (i : ι) (x : MessageInput) v l f message, k.Ready i x.state v → x.WellFormed →
    x.message = .internal message → k.Open i l f → Delivers a.payerAddress f message →
    (a.receiver.processMessage x).statusCode = 0 →
      k.Ready i ((a.receiver.processMessage x).nextState x.state) (v + f.amount) ∧
        (a.receiver.processMessage x).callbackResultBody = f.intent.body

/-- **The phases of a lane**: the lane, the transfers to it and the callbacks from it that are on
their way, and what its receiver has received. -/
inductive Lanes.Phase (k : Lanes a S L) (created : List InternalMessage) (i : ι) (l : L) :
    List Flight → List InternalMessage → ℕ → Prop
  /-- Nothing is under way. -/
  | idle (idle : k.Idle l) : Phase k created i l [] [] (k.settled l)
  /-- The transfer is on its way. -/
  | sent {f : Flight} (opened : k.Open i l f) : Phase k created i l [f] [] (k.settled l)
  /-- The transfer has arrived, and its callback is on its way. -/
  | arrived {f : Flight} {earlier : List InternalMessage} {message : InternalMessage}
      {h : CallbackHeader} (opened : k.Open i l f) (known : k.Known l earlier)
      (history : earlier ++ [message] ⊆ created)
      (answers : a.Answers f earlier message h)
      (success : ReportsSuccess message h f.intent.body) :
      Phase k created i l [] [message] (k.settled l + f.amount)
  /-- The transfer has failed, and its callback is on its way. -/
  | returned {f : Flight} {earlier : List InternalMessage} {message : InternalMessage}
      {h : CallbackHeader} (opened : k.Open i l f) (known : k.Known l earlier)
      (history : earlier ++ [message] ⊆ created)
      (answers : a.Answers f earlier message h)
      (failure : ReportsFailure f message h) : Phase k created i l [] [message] (k.settled l)

/-- The transfers to a receiver. -/
def Accounts.transfersTo (a : Accounts ι) (i : ι) (ts : List Flight) : List Flight :=
  ts.filter fun f => f.intent.destination = a.address i

/-- The callbacks from a receiver. -/
def Accounts.callbacksFrom (a : Accounts ι) (i : ι) (cs : List InternalMessage) :
    List InternalMessage :=
  cs.filter fun m => m.source = a.address i

/-- One of the callbacks reports a success. -/
def SuccessAmong (cs : List InternalMessage) : Prop :=
  ∃ m ∈ cs, ∃ h ∈ m.callback, h.statusCode = 0

instance : DecidablePred SuccessAmong :=
  fun cs => inferInstanceAs (Decidable (∃ m ∈ cs, ∃ h ∈ m.callback, h.statusCode = 0))

/-- **The invariant**: every lane is in one of its phases, and nothing else is on its way. -/
structure Lanes.Coherent (k : Lanes a S L) (n : Network ι) (s : S) : Prop where
  stored : k.Stored s
  payer_eq : n.payer = k.encode s
  known : ∀ i, k.Known (k.lane s i) n.created
  phase : ∀ i, ∃ v, k.Ready i (n.receivers i) v ∧
    k.Phase n.created i (k.lane s i) (a.transfersTo i n.transfers) (a.callbacksFrom i n.callbacks) v
  transfers : ∀ f ∈ n.transfers, ∃ i, f.intent.destination = a.address i
  callbacks : ∀ m ∈ n.callbacks, ∃ i, m.source = a.address i

omit [DecidableEq ι] in
/-- Before the first transfer, with receivers that are ready, all is coherent. -/
theorem Lanes.Coherent.of_quiet {k : Lanes a S L} {n : Network ι} {s : S} (hs : k.Stored s)
    (hpayer : n.payer = k.encode s) (htransfers : n.transfers = []) (hcallbacks : n.callbacks = [])
    (hlanes : ∀ i, k.Known (k.lane s i) n.created ∧ k.Idle (k.lane s i) ∧
      k.Ready i (n.receivers i) (k.settled (k.lane s i))) : k.Coherent n s := by
  refine ⟨hs, hpayer, fun i => (hlanes i).1, fun i => ⟨_, (hlanes i).2.2, ?_⟩, ?_, ?_⟩
  · rw [htransfers, hcallbacks]
    exact .idle (hlanes i).2.1
  · rw [htransfers]
    exact List.forall_mem_nil _
  · rw [hcallbacks]
    exact List.forall_mem_nil _

/-! ## Messages of one receiver -/

section

variable {α : Type} {p : α → Prop} [DecidablePred p] {pre post xs : List α} {x y : α}

omit [Target] [DecidableEq ι] in
/-- An entry that is taken out of a list was the only one of its kind. -/
theorem filter_eq_singleton (hx : p x) (h : (pre ++ x :: post).filter (p ·) = [y]) :
    x = y ∧ (pre ++ post).filter (p ·) = [] := by
  have hhead : (x :: post).filter (p ·) = x :: post.filter (p ·) :=
    List.filter_cons_of_pos (decide_eq_true hx)
  rw [List.filter_append, hhead, List.append_eq_singleton_iff] at h
  rcases h with ⟨hpre, hpost⟩ | ⟨-, hpost⟩
  · rw [List.cons.injEq] at hpost
    exact ⟨hpost.1, by rw [List.filter_append, hpre, hpost.2]; rfl⟩
  · exact absurd hpost (List.cons_ne_nil _ _)

omit [Target] [DecidableEq ι] in
/-- An entry of another kind does not show. -/
theorem filter_cons_ne (hx : ¬ p x) :
    (pre ++ x :: post).filter (p ·) = (pre ++ post).filter (p ·) := by
  have hhead : (x :: post).filter (p ·) = post.filter (p ·) :=
    List.filter_cons_of_neg (by simpa using hx)
  rw [List.filter_append, hhead, ← List.filter_append]

omit [Target] [DecidableEq ι] in
/-- A new entry shows if it is of the kind. -/
theorem filter_snoc :
    (xs ++ [x]).filter (p ·) = if p x then xs.filter (p ·) ++ [x] else xs.filter (p ·) := by
  rw [List.filter_append]
  by_cases hx : p x <;> simp [hx]

end

namespace Lanes

variable {k : Lanes a S L} {n n' : Network ι} {s t : S} {i : ι} {l : L} {ts : List Flight}
  {cs created created' : List InternalMessage} {v : ℕ}

omit [DecidableEq ι] in
/-- The callbacks of a phase were created before anything new. -/
theorem Phase.mono (h : k.Phase created i l ts cs v) (hsub : created ⊆ created') :
    k.Phase created' i l ts cs v := by
  cases h with
  | idle idle => exact .idle idle
  | sent opened => exact .sent opened
  | arrived opened known history answers success =>
      exact .arrived opened known (List.Subset.trans history hsub) answers success
  | returned opened known history answers failure =>
      exact .returned opened known (List.Subset.trans history hsub) answers failure

omit [DecidableEq ι] in
/-- An idle lane has nothing on its way. -/
theorem Phase.of_idle (hk : k.Lawful) (h : k.Phase created i l ts cs v) (hidle : k.Idle l) :
    ts = [] ∧ cs = [] ∧ v = k.settled l := by
  cases h with
  | idle => exact ⟨rfl, rfl, rfl⟩
  | sent opened => exact absurd hidle (hk.not_idle _ _ _ opened)
  | arrived opened => exact absurd hidle (hk.not_idle _ _ _ opened)
  | returned opened => exact absurd hidle (hk.not_idle _ _ _ opened)

omit [DecidableEq ι] in
/-- **What a phase says about the amounts**: the receiver has what is settled, and the pending amount
if its callback reports a success. One message is on its way if something is pending, else none. -/
theorem Phase.balance (h : k.Phase created i l ts cs v) (pending : ℕ)
    (hidle : k.Idle l → pending = 0)
    (hopen : ∀ f, k.Open i l f → pending = f.amount ∧ pending ≠ 0) :
    v = k.settled l + (if SuccessAmong cs then pending else 0) ∧
      ts.length + cs.length = if pending = 0 then 0 else 1 := by
  have hnone : ¬ SuccessAmong [] := fun ⟨m, hm, _⟩ => absurd hm List.not_mem_nil
  cases h with
  | idle idle =>
      rw [if_neg hnone, if_pos (hidle idle)]
      exact ⟨rfl, rfl⟩
  | sent opened =>
      rw [if_neg hnone, if_neg (hopen _ opened).2]
      exact ⟨rfl, rfl⟩
  | @arrived f earlier message header opened known history answers success =>
      have hsuccess : SuccessAmong [message] :=
        ⟨message, List.mem_singleton_self _, header, answers.header, success.status_eq⟩
      rw [if_pos hsuccess, if_neg (hopen _ opened).2, (hopen _ opened).1]
      exact ⟨rfl, rfl⟩
  | @returned f earlier message header opened known history answers failure =>
      have hfailure : ¬ SuccessAmong [message] := by
        rintro ⟨m, hm, h', hh', hstatus⟩
        rw [List.mem_singleton.mp hm, answers.header, Option.mem_some] at hh'
        rw [← hh'] at hstatus
        exact failure.status_ne hstatus
      rw [if_neg hfailure, if_neg (hopen _ opened).2]
      exact ⟨rfl, rfl⟩

/-! ## Steps -/

/-- The payer gets a message that is no callback. -/
theorem Coherent.call (hk : k.Lawful) (h : k.Coherent n s) {x : MessageInput} (hwf : x.WellFormed)
    (hstate : x.state = n.payer) (hdestination : x.destination = a.payerAddress)
    (hplain : ¬ x.message.isCallback) :
    ∃ t, k.Coherent { n with
      payer := (a.payer.processMessage x).nextState n.payer
      transfers := n.transfers ++ flights x.context.blockLt (a.payer.processMessage x) } t := by
  obtain ⟨t, hstored, hnext, hemits⟩ :=
    hk.call s x h.stored hwf (hstate.trans h.payer_eq) hdestination hplain
  rw [hstate] at hnext
  refine ⟨t, ?_⟩
  generalize flights x.context.blockLt (a.payer.processMessage x) = fs at hemits
  cases hemits with
  | nothing same =>
      rw [List.append_nil]
      exact ⟨hstored, hnext, by rw [same]; exact h.known, by rw [same]; exact h.phase, h.transfers,
        h.callbacks⟩
  | @transfer i f idle opened settled_eq known others =>
      have hto := hk.destination_eq _ _ _ opened
      refine ⟨hstored, hnext, fun j => ?_, fun j => ?_, fun g hg => ?_, h.callbacks⟩
      · by_cases hji : j = i
        · rw [hji]
          exact known _ (h.known i)
        · rw [others j hji]
          exact h.known j
      · obtain ⟨v, hready, hphase⟩ := h.phase j
        refine ⟨v, hready, ?_⟩
        show k.Phase n.created j (k.lane t j) (a.transfersTo j (n.transfers ++ [f]))
          (a.callbacksFrom j n.callbacks) v
        unfold Accounts.transfersTo
        rw [filter_snoc]
        by_cases hji : j = i
        · subst hji
          obtain ⟨hts, hcs, hv⟩ := hphase.of_idle hk idle
          rw [if_pos hto]
          unfold Accounts.transfersTo at hts
          rw [hts, hcs, hv, ← settled_eq]
          exact .sent opened
        · have hne : f.intent.destination ≠ a.address j := by
            rw [hto]
            exact fun heq => hji (hk.address_injective heq).symm
          rw [if_neg hne, others j hji]
          exact hphase
      · rcases List.mem_append.mp hg with hg | hg
        · exact h.transfers g hg
        · rw [List.mem_singleton.mp hg]
          exact ⟨i, hto⟩

/-- A receiver gets a message from someone else. -/
theorem Coherent.manage (hk : k.Lawful) (h : k.Coherent n s) {x : MessageInput}
    (hwf : x.WellFormed) (hstate : x.state = n.receivers i)
    (hdestination : x.destination = a.address i) (hother : x.caller ≠ .internal a.payerAddress)
    (hallowed : a.Allowed x) :
    k.Coherent { n with
      receivers := Function.update n.receivers i
        ((a.receiver.processMessage x).nextState (n.receivers i)) } s := by
  refine ⟨h.stored, h.payer_eq, h.known, fun j => ?_, h.transfers, h.callbacks⟩
  obtain ⟨v, hready, hphase⟩ := h.phase j
  refine ⟨v, ?_, hphase⟩
  by_cases hji : j = i
  · subst hji
    show k.Ready j (Function.update n.receivers j _ j) v
    rw [Function.update_self]
    rw [← hstate] at hready ⊢
    exact hk.manage j x v hready hwf hdestination hother hallowed
  · show k.Ready j (Function.update n.receivers i _ j) v
    rw [Function.update_of_ne hji]
    exact hready

/-- A transfer becomes a callback: what this changes for the lanes. -/
theorem Coherent.replace (hk : k.Lawful) (h : k.Coherent n s) {pre post : List Flight} {f : Flight}
    {callback : InternalMessage} {header : CallbackHeader} (hts : n.transfers = pre ++ f :: post)
    (hto : f.intent.destination = a.address i)
    (hanswers : a.Answers f n.created callback header)
    {receivers : ι → Bytes} (hothers : ∀ j, j ≠ i → receivers j = n.receivers j)
    (hphase : ∀ v, k.Ready i (n.receivers i) v → k.Open i (k.lane s i) f →
      k.Known (k.lane s i) n.created → v = k.settled (k.lane s i) →
        ∃ v', k.Ready i (receivers i) v' ∧
          k.Phase (n.created ++ [callback]) i (k.lane s i) [] [callback] v') :
    k.Coherent { n with
      receivers := receivers
      transfers := pre ++ post
      callbacks := n.callbacks ++ [callback]
      created := n.created ++ [callback] } s := by
  have hsource : callback.source = a.address i := hanswers.source_eq.trans hto
  have hsub : n.created ⊆ n.created ++ [callback] := List.subset_append_left _ _
  refine ⟨h.stored, h.payer_eq, fun j => hk.known_mono _ _ _ hsub (h.known j), fun j => ?_,
    fun g hg => ?_, fun m hm => ?_⟩
  · obtain ⟨v, hready, hold⟩ := h.phase j
    unfold Accounts.transfersTo Accounts.callbacksFrom at hold ⊢
    show ∃ v, k.Ready j (receivers j) v ∧ k.Phase (n.created ++ [callback]) j (k.lane s j)
      ((pre ++ post).filter fun f => f.intent.destination = a.address j)
      ((n.callbacks ++ [callback]).filter fun m => m.source = a.address j) v
    rw [hts] at hold
    rw [filter_snoc]
    by_cases hji : j = i
    · subst hji
      rw [if_pos hsource]
      generalize hfs : (pre ++ f :: post).filter
        (fun f => f.intent.destination = a.address j) = fs at hold
      have hmem : f ∈ fs := by
        rw [← hfs, List.mem_filter]
        exact ⟨List.mem_append_right _ List.mem_cons_self, decide_eq_true hto⟩
      generalize hcs : n.callbacks.filter (fun m => m.source = a.address j) = cs at hold
      cases hold with
      | idle => exact absurd hmem List.not_mem_nil
      | arrived => exact absurd hmem List.not_mem_nil
      | returned => exact absurd hmem List.not_mem_nil
      | sent opened =>
          obtain ⟨rfl, hrest⟩ :=
            filter_eq_singleton (p := fun g : Flight => g.intent.destination = a.address j) hto hfs
          rw [hrest, List.nil_append]
          exact hphase _ hready opened (h.known j) rfl
    · have hne : ¬ callback.source = a.address j := by
        rw [hsource]
        exact fun heq => hji (hk.address_injective heq).symm
      have hne' : ¬ f.intent.destination = a.address j := by
        rw [hto]
        exact fun heq => hji (hk.address_injective heq).symm
      rw [if_neg hne, hothers j hji]
      rw [filter_cons_ne (p := fun g : Flight => g.intent.destination = a.address j) hne'] at hold
      exact ⟨v, hready, hold.mono hsub⟩
  · apply h.transfers g
    rw [hts]
    rcases List.mem_append.mp hg with hg | hg
    · exact List.mem_append_left _ hg
    · exact List.mem_append_right _ (List.mem_cons_of_mem _ hg)
  · rcases List.mem_append.mp hm with hm | hm
    · exact h.callbacks m hm
    · rw [List.mem_singleton.mp hm]
      exact ⟨i, hsource⟩

/-- A transfer is delivered and accepted. -/
theorem Coherent.deliver (hk : k.Lawful) (h : k.Coherent n s) {pre post : List Flight} {f : Flight}
    {x : MessageInput} {message callback : InternalMessage} {header : CallbackHeader}
    (hts : n.transfers = pre ++ f :: post) (hto : f.intent.destination = a.address i)
    (hwf : x.WellFormed) (hstate : x.state = n.receivers i) (hmessage : x.message = .internal message)
    (hdelivers : Delivers a.payerAddress f message)
    (haccepted : (a.receiver.processMessage x).statusCode = 0)
    (hanswers : a.Answers f n.created callback header)
    (hsuccess : ReportsSuccess callback header (a.receiver.processMessage x).callbackResultBody) :
    k.Coherent { n with
      receivers := Function.update n.receivers i
        ((a.receiver.processMessage x).nextState (n.receivers i))
      transfers := pre ++ post
      callbacks := n.callbacks ++ [callback]
      created := n.created ++ [callback] } s := by
  refine h.replace hk hts hto hanswers (fun j hji => Function.update_of_ne hji _ _)
    fun v hready hopen hknown hv => ?_
  rw [← hstate] at hready
  obtain ⟨hnext, hresult⟩ := hk.deliver i x v _ f message hready hwf hmessage hopen hdelivers haccepted
  rw [hresult] at hsuccess
  refine ⟨v + f.amount, ?_, ?_⟩
  · rw [Function.update_self, ← hstate]
    exact hnext
  · rw [hv]
    exact .arrived hopen hknown (List.Subset.refl _) hanswers hsuccess

/-- A transfer fails. -/
theorem Coherent.fail (hk : k.Lawful) (h : k.Coherent n s) {pre post : List Flight} {f : Flight}
    {callback : InternalMessage} {header : CallbackHeader}
    (hts : n.transfers = pre ++ f :: post)
    (hanswers : a.Answers f n.created callback header)
    (hfailure : ReportsFailure f callback header) :
    k.Coherent { n with
      transfers := pre ++ post
      callbacks := n.callbacks ++ [callback]
      created := n.created ++ [callback] } s := by
  have hmem : f ∈ n.transfers := by
    rw [hts]
    exact List.mem_append_right _ List.mem_cons_self
  obtain ⟨i, hto⟩ := h.transfers f hmem
  refine h.replace hk hts hto hanswers (fun _ _ => rfl) fun v hready hopen hknown hv => ?_
  refine ⟨v, hready, ?_⟩
  rw [hv]
  exact .returned hopen hknown (List.Subset.refl _) hanswers hfailure

omit [DecidableEq ι] in
/-- A callback on its way belongs to a lane that waits for it. -/
theorem Coherent.exists_open (h : k.Coherent n s) {pre post : List InternalMessage}
    {callback : InternalMessage} (hcs : n.callbacks = pre ++ callback :: post) :
    ∃ i f earlier header, callback.source = a.address i ∧ k.Open i (k.lane s i) f ∧
      k.Known (k.lane s i) earlier ∧ earlier ++ [callback] ⊆ n.created ∧
      a.Answers f earlier callback header ∧
      a.transfersTo i n.transfers = [] ∧ a.callbacksFrom i (pre ++ post) = [] ∧
      (ReportsSuccess callback header f.intent.body ∧
          k.Ready i (n.receivers i) (k.settled (k.lane s i) + f.amount) ∨
        ReportsFailure f callback header ∧
          k.Ready i (n.receivers i) (k.settled (k.lane s i))) := by
  have hmem : callback ∈ n.callbacks := by
    rw [hcs]
    exact List.mem_append_right _ List.mem_cons_self
  obtain ⟨i, hsource⟩ := h.callbacks callback hmem
  obtain ⟨v, hready, hphase⟩ := h.phase i
  have hkept : callback ∈ a.callbacksFrom i n.callbacks :=
    List.mem_filter.mpr ⟨hmem, decide_eq_true hsource⟩
  generalize hts : a.transfersTo i n.transfers = ts at hphase
  generalize hfrom : a.callbacksFrom i n.callbacks = cs at hphase hkept
  cases hphase with
  | idle => exact absurd hkept List.not_mem_nil
  | sent => exact absurd hkept List.not_mem_nil
  | arrived opened known history answers success =>
      rw [hcs] at hfrom
      obtain ⟨rfl, hrest⟩ :=
        filter_eq_singleton (p := fun m : InternalMessage => m.source = a.address i) hsource hfrom
      exact ⟨i, _, _, _, hsource, opened, known, history, answers, hts, hrest,
        .inl ⟨success, hready⟩⟩
  | returned opened known history answers failure =>
      rw [hcs] at hfrom
      obtain ⟨rfl, hrest⟩ :=
        filter_eq_singleton (p := fun m : InternalMessage => m.source = a.address i) hsource hfrom
      exact ⟨i, _, _, _, hsource, opened, known, history, answers, hts, hrest,
        .inr ⟨failure, hready⟩⟩

omit [DecidableEq ι] in
/-- **Every callback on its way is accepted** when it is delivered. -/
theorem Coherent.accepts (hk : k.Lawful) (h : k.Coherent n s) {pre post : List InternalMessage}
    {callback : InternalMessage} {x : MessageInput} (hcs : n.callbacks = pre ++ callback :: post)
    (hwf : x.WellFormed) (hstate : x.state = n.payer) (hdestination : x.destination = a.payerAddress)
    (hmessage : x.message = .internal callback) : (a.payer.processMessage x).statusCode = 0 := by
  obtain ⟨i, f, earlier, header, -, hopen, hknown, -, hanswers, -, -, hreport⟩ := h.exists_open hcs
  have hcontent : ReportsSuccess callback header f.intent.body ∨
      ReportsFailure f callback header := hreport.imp And.left And.left
  exact (hk.answer s x i f earlier callback header h.stored hwf (hstate.trans h.payer_eq)
    hdestination hmessage hopen hknown hanswers hcontent).1

/-- A callback is delivered. -/
theorem Coherent.answer (hk : k.Lawful) (h : k.Coherent n s) {pre post : List InternalMessage}
    {callback : InternalMessage} {x : MessageInput} (hcs : n.callbacks = pre ++ callback :: post)
    (hwf : x.WellFormed) (hstate : x.state = n.payer) (hdestination : x.destination = a.payerAddress)
    (hmessage : x.message = .internal callback) :
    ∃ t, k.Coherent { n with
      payer := (a.payer.processMessage x).nextState n.payer
      transfers := n.transfers ++ flights x.context.blockLt (a.payer.processMessage x)
      callbacks := pre ++ post } t := by
  obtain ⟨i, f, earlier, header, hsource, hopen, hknown, hhistory, hanswers, hnone, hrest, hreport⟩ :=
    h.exists_open hcs
  have hcontent : ReportsSuccess callback header f.intent.body ∨
      ReportsFailure f callback header := hreport.imp And.left And.left
  obtain ⟨-, hsilent, t, hstored, hnext, hanswered⟩ := hk.answer s x i f earlier callback header
    h.stored hwf (hstate.trans h.payer_eq) hdestination hmessage hopen hknown hanswers hcontent
  rw [hstate] at hnext
  refine ⟨t, ?_⟩
  rw [hsilent, List.append_nil]
  refine ⟨hstored, hnext, fun j => ?_, fun j => ?_, h.transfers, fun m hm => ?_⟩
  · by_cases hji : j = i
    · rw [hji]
      exact hk.known_mono _ _ _ hhistory hanswered.known
    · cases hanswered.others j hji with
      | same eq =>
          rw [eq]
          exact h.known j
      | idle before after settled_eq known => exact hk.known_mono _ _ _ hhistory known
  · by_cases hji : j = i
    · subst hji
      refine ⟨k.settled (k.lane t j), ?_, ?_⟩
      · rw [hanswered.settled_eq]
        rcases hreport with ⟨hsuccess, hready⟩ | ⟨hfailure, hready⟩
        · rw [if_pos hsuccess.status_eq]
          exact hready
        · rw [if_neg hfailure.status_ne, Nat.add_zero]
          exact hready
      · show k.Phase n.created j (k.lane t j) (a.transfersTo j n.transfers)
          (a.callbacksFrom j (pre ++ post)) _
        rw [hnone, hrest]
        exact .idle hanswered.idle
    · obtain ⟨v, hready, hphase⟩ := h.phase j
      have hne : ¬ callback.source = a.address j := by
        rw [hsource]
        exact fun heq => hji (hk.address_injective heq).symm
      have hsame : a.callbacksFrom j n.callbacks = a.callbacksFrom j (pre ++ post) := by
        rw [hcs]
        exact filter_cons_ne (p := fun m : InternalMessage => m.source = a.address j) hne
      rw [hsame] at hphase
      cases hanswered.others j hji with
      | same eq =>
          rw [eq]
          exact ⟨v, hready, hphase⟩
      | idle before after settled_eq known =>
          obtain ⟨hts, hcs, rfl⟩ := hphase.of_idle hk before
          refine ⟨k.settled (k.lane s j), hready, ?_⟩
          show k.Phase n.created j (k.lane t j) (a.transfersTo j n.transfers)
            (a.callbacksFrom j (pre ++ post)) _
          rw [hts, hcs, ← settled_eq]
          exact .idle after
  · apply h.callbacks m
    rw [hcs]
    rcases List.mem_append.mp hm with hm | hm
    · exact List.mem_append_left _ hm
    · exact List.mem_append_right _ (List.mem_cons_of_mem _ hm)

/-- **A step** keeps the invariant. -/
theorem Coherent.step (hk : k.Lawful) (h : k.Coherent n s) (hstep : a.Step n n') :
    ∃ t, k.Coherent n' t := by
  cases hstep with
  | call hwf hstate hdestination hplain => exact h.call hk hwf hstate hdestination hplain
  | manage hwf hstate hdestination hother hallowed =>
      exact ⟨s, h.manage hk hwf hstate hdestination hother hallowed⟩
  | deliver hts hto hwf hstate hmessage hdelivers haccepted hanswers hsuccess =>
      exact ⟨s, h.deliver hk hts hto hwf hstate hmessage hdelivers haccepted hanswers hsuccess⟩
  | fail hts hanswers hfailure => exact ⟨s, h.fail hk hts hanswers hfailure⟩
  | answer hcs hwf hstate hdestination hmessage =>
      exact h.answer hk hcs hwf hstate hdestination hmessage

/-- **Every configuration** that can be reached is coherent. -/
theorem Lawful.coherent (hk : k.Lawful) (hreach : Relation.ReflTransGen a.Step n n')
    (h : k.Coherent n s) : ∃ t, k.Coherent n' t := by
  induction hreach with
  | refl => exact ⟨s, h⟩
  | tail _ hstep ih =>
      obtain ⟨t, ht⟩ := ih
      exact ht.step hk hstep

end Lanes

end

end AvmSdk.Contracts
