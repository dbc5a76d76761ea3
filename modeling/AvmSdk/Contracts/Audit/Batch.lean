import AvmSdk.Contracts.Audit.Simulation

/-!
# A batch is its messages, one after another

The batch path of the audit ledger works on a copy of the records and writes each of them once. Here
it is compared with the isolated path, message by message.

* `Ledger.reply`: one message of a batch, apart from the others. `Ledger.rounds_eq`: a batch is a
  sequence of replies; its events are those of the replies, each at its place (`placed`).
* `isolated_eq_reply`: an isolated message of an account is answered with its reply.
* `batch_eq_sequence`: a batch of messages of accounts is the sequence of the isolated messages.
  `batch_skips_external`: messages from outside leave no trace. `batch_splits`: a batch can be cut.
* `batch_is_sequential`: all of this.
-/

namespace AvmSdk.Audit

open Wire Sdk Contracts Hub

/-- The events of the messages of a batch, each at the place of its message. -/
def placed (n : ℕ) (events : List (List EventIntent)) : List EventIntent :=
  (events.zipIdx n).flatMap fun item =>
    item.1.map fun e => { e with inputIndex := BitVec.ofNat 32 item.2 }

/-- An event of a message further back. -/
def shifted (n : ℕ) (e : EventIntent) : EventIntent :=
  { e with inputIndex := e.inputIndex + BitVec.ofNat 32 n }

/-- The events of the first message, then those of the rest. -/
theorem placed_cons (n : ℕ) (es : List EventIntent) (events : List (List EventIntent)) :
    placed n (es :: events) =
      (es.map fun e => { e with inputIndex := BitVec.ofNat 32 n }) ++ placed (n + 1) events := by
  unfold placed
  rw [List.zipIdx_cons, List.flatMap_cons]

/-- Placing two runs of messages: the second starts where the first ends. -/
theorem placed_append (n : ℕ) (es fs : List (List EventIntent)) :
    placed n (es ++ fs) = placed n es ++ placed (n + es.length) fs := by
  unfold placed
  rw [List.zipIdx_append, List.flatMap_append]

/-- Placing later shifts every index. -/
theorem placed_shift (n m : ℕ) (events : List (List EventIntent)) :
    placed (m + n) events = (placed m events).map (shifted n) := by
  induction events generalizing m with
  | nil => rfl
  | cons es events ih =>
      have hplace : BitVec.ofNat 32 (m + n) = BitVec.ofNat 32 m + BitVec.ofNat 32 n :=
        BitVec.ofNat_add m n
      rw [placed_cons, placed_cons, List.map_append, List.map_map, Nat.add_right_comm, ih, hplace]
      rfl

/-- An event of a message, after a message has been put in at a place. -/
def movedFrom (n : ℕ) (e : EventIntent) : EventIntent :=
  if e.inputIndex.toNat < n then e else shifted 1 e

/-- The places of the events. -/
theorem mem_placed {n : ℕ} {events : List (List EventIntent)} {e : EventIntent}
    (h : e ∈ placed n events) :
    ∃ k, n ≤ k ∧ k < n + events.length ∧ e.inputIndex = BitVec.ofNat 32 k := by
  obtain ⟨⟨es, k⟩, hk, he⟩ := List.mem_flatMap.mp h
  obtain ⟨e', -, rfl⟩ := List.mem_map.mp he
  exact ⟨k, List.le_snd_of_mem_zipIdx hk, List.snd_lt_add_of_mem_zipIdx hk, rfl⟩

/-- Events in front of a place stay, and those behind it move. -/
theorem placed_moved {events events' : List (List EventIntent)}
    (hlength : events.length + events'.length < 2 ^ 32) :
    placed 0 events ++ placed (events.length + 1) events' =
      (placed 0 events ++ placed events.length events').map (movedFrom events.length) := by
  have hfront : ∀ e ∈ placed 0 events, movedFrom events.length e = e := by
    intro e he
    obtain ⟨k, -, hk, hindex⟩ := mem_placed he
    unfold movedFrom
    rw [hindex, BitVec.toNat_ofNat, Nat.mod_eq_of_lt (by omega), if_pos (by omega)]
  have hback : ∀ e ∈ placed events.length events', movedFrom events.length e = shifted 1 e := by
    intro e he
    obtain ⟨k, hle, hk, hindex⟩ := mem_placed he
    unfold movedFrom
    rw [hindex, BitVec.toNat_ofNat, Nat.mod_eq_of_lt (by omega), if_neg (by omega)]
  rw [List.map_append, List.map_congr_left hfront, List.map_congr_left hback, placed_shift,
    List.map_id']

section

variable [Target]

namespace Ledger

/-- One message of a batch, apart from the others: its status, its events and the ledger after it. -/
def reply (l : Ledger) (message : CanonicalMessage) : (U32 × List EventIntent) × Ledger :=
  match l.receiveMessage message with
  | .ok e => ((0, entryEvents 0 e), l.withRecord e.index e.record)
  | .error code => ((code, []), l)

/-- The messages of a batch, one after another. -/
def replies (messages : List CanonicalMessage) (l : Ledger) :
    List (U32 × List EventIntent) × Ledger :=
  Alloc.run (fun message l => l.reply message) messages l

variable {l : Ledger}

/-- One round is one reply. -/
theorem round_eq (o : Outcome) (message : CanonicalMessage) (n : ℕ) : round o (message, n) =
    ⟨(o.ledger.reply message).2, o.statuses ++ [(o.ledger.reply message).1.1],
      o.events ++ placed n [(o.ledger.reply message).1.2]⟩ := by
  have hplaced (es : List EventIntent) : placed n [es] =
      es.map fun e => { e with inputIndex := BitVec.ofNat 32 n } := by
    rw [placed_cons]
    exact List.append_nil _
  unfold round reply
  dsimp only
  cases o.ledger.receiveMessage message with
  | ok e =>
      obtain ⟨-, -, -, hevents⟩ := entryEvents_eq (BitVec.ofNat 32 n) e
      rw [hplaced, ← hevents]
  | error code => rw [hplaced, List.map_nil, List.append_nil]

/-- The rounds are the replies, one after another. -/
theorem foldl_round_eq (messages : List CanonicalMessage) (n : ℕ) (o : Outcome) :
    (messages.zipIdx n).foldl round o =
      ⟨(replies messages o.ledger).2,
        o.statuses ++ (replies messages o.ledger).1.map Prod.fst,
        o.events ++ placed n ((replies messages o.ledger).1.map Prod.snd)⟩ := by
  induction messages generalizing n o with
  | nil =>
      show o = ⟨o.ledger, o.statuses ++ [], o.events ++ []⟩
      rw [List.append_nil, List.append_nil]
  | cons m messages ih =>
      rw [List.zipIdx_cons, List.foldl_cons, ih, round_eq]
      simp only [replies, Alloc.run, List.map_cons, placed_cons, List.append_assoc,
        List.singleton_append]
      rfl

/-- **A batch** is a sequence of replies. -/
theorem rounds_eq (l : Ledger) (messages : List CanonicalMessage) : l.rounds messages =
    ⟨(replies messages l).2, (replies messages l).1.map Prod.fst,
      placed 0 ((replies messages l).1.map Prod.snd)⟩ := by
  unfold rounds
  rw [foldl_round_eq, List.nil_append, List.nil_append]

/-- A report keeps the ledger valid, -/
theorem Valid.reply (hl : l.Valid) (message : CanonicalMessage) : (l.reply message).2.Valid := by
  unfold Ledger.reply
  split
  next e he =>
    obtain ⟨m, -, hadmitted⟩ := receiveMessage_ok_iff.mp he
    exact hadmitted.valid hl
  next => exact hl

/-- and so do all the reports of a batch. -/
theorem valid_replies (hl : l.Valid) (messages : List CanonicalMessage) :
    (replies messages l).2.Valid :=
  Alloc.run_invariant (I := Ledger.Valid) (fun message _ hl => hl.reply message) messages hl

/-- Every message has one reply. -/
theorem length_replies (l : Ledger) (messages : List CanonicalMessage) :
    (replies messages l).1.length = messages.length := Alloc.length_run ..

/-- The replies to messages, and to more messages behind them. -/
theorem replies_append (l : Ledger) (messages messages' : List CanonicalMessage) :
    replies (messages ++ messages') l =
      ((replies messages l).1 ++ (replies messages' (replies messages l).2).1,
        (replies messages' (replies messages l).2).2) := Alloc.run_append ..

/-- A message from outside has no effect on the others. -/
theorem replies_external (l : Ledger) (e : ExternalMessage) (messages : List CanonicalMessage) :
    replies (.external e :: messages) l =
      ((eAuditAuth, []) :: (replies messages l).1, (replies messages l).2) := rfl

end Ledger

/-! ## The isolated path -/

/-- The isolated run of a message of a batch: on a state and in a mode. -/
def isolatedRun (input : BatchInput) (item : CanonicalMessage × StateOutputMode) (state : Bytes) :
    MessageOutput × Bytes :=
  let out := Legacy.auditLedger.processMessage
    { input.isolated item.1 with state := state, requiredStateOutputMode := item.2 }
  (out, out.appliedTo state)

/-- A message has the same fate in a batch and in isolation. -/
structure SameFate (message : CanonicalMessage) (status : U32) (out : MessageOutput) : Prop where
  success_iff : status = 0 ↔ out.statusCode = 0
  status_eq : message.methodId ≠ Ids.auditBind → message.methodId ≠ Ids.auditStatus →
    status = out.statusCode

variable {l : Ledger} {input : BatchInput} {messages : List CanonicalMessage}

/-- A message of an account that asks for one of the other methods is refused on both paths. -/
theorem refused_of_method (l : Ledger) {m : InternalMessage} {x : MessageInput}
    (hx : x.message = .internal m) (hcaller : x.caller = .internal m.source)
    (hmethod : m.methodId = Ids.auditBind ∨ m.methodId = Ids.auditStatus) :
    l.answered x = (⟨[eAuditAuth], []⟩, l) ∧ l.reply (.internal m) = ((eAuditArgs, []), l) := by
  have hid : x.message.methodId = m.methodId := by
    rw [hx]
    rfl
  have hhandle : l.handle x = .error eAuditAuth := by
    unfold Ledger.handle
    rw [hid]
    split_ifs with hstatus hbind
    · unfold Ledger.query
      rw [hcaller]
    · unfold Ledger.binding
      rw [hcaller]
      rfl
    · exact (hmethod.elim hbind hstatus).elim
  have hreport : NoReport m := by
    refine .inl fun hno => ?_
    rw [hno] at hmethod
    exact absurd hmethod (by decide)
  refine ⟨?_, ?_⟩
  · unfold Ledger.answered
    rw [hhandle]
  · have hreceive : l.receiveMessage (.internal m) = .error eAuditArgs := by
      show (failIf (NoReport m) eAuditArgs >>= _) = _
      rw [failIf, if_pos hreport]
      rfl
    unfold Ledger.reply
    rw [hreceive]

/-- A report of an account is answered with its reply on both paths. -/
theorem answered_eq_reply (l : Ledger) {m : InternalMessage} {x : MessageInput}
    (hx : x.message = .internal m) (hcaller : x.caller = .internal m.source)
    (hmethod : ¬ (m.methodId = Ids.auditBind ∨ m.methodId = Ids.auditStatus)) :
    l.answered x = (⟨[(l.reply (.internal m)).1.1], (l.reply (.internal m)).1.2⟩,
      (l.reply (.internal m)).2) := by
  have hid : x.message.methodId = m.methodId := by
    rw [hx]
    rfl
  have hhandle : l.handle x = Ledger.Change.entry <$> l.receiveMessage (.internal m) := by
    push Not at hmethod
    unfold Ledger.handle Ledger.reported
    rw [hid, if_neg hmethod.2, if_neg hmethod.1, hcaller, hx]
    rfl
  unfold Ledger.answered Ledger.reply
  rw [hhandle]
  cases l.receiveMessage (.internal m) with
  | ok e => rfl
  | error code => rfl

/-- **A message of an account** that runs in isolation has the fate of its reply. Only the codes of
the two methods that are not for accounts differ. -/
theorem isolated_eq_reply (input : BatchInput) (hl : l.Valid) (m : InternalMessage)
    (mode : StateOutputMode) :
    SameFate (.internal m) (l.reply (.internal m)).1.1
        (isolatedRun input (.internal m, mode) (Legacy.format.encode l)).1 ∧
      (l.reply (.internal m)).1.2 =
        (isolatedRun input (.internal m, mode) (Legacy.format.encode l)).1.eventIntents ∧
      (isolatedRun input (.internal m, mode) (Legacy.format.encode l)).2 =
        Legacy.format.encode (l.reply (.internal m)).2 := by
  let x : MessageInput := { input.isolated (.internal m) with
    state := Legacy.format.encode l, requiredStateOutputMode := mode }
  obtain ⟨hanswer, hstate⟩ := Legacy.keeps.message (x := x) hl rfl
  unfold answerOf at hanswer
  by_cases hmethod : m.methodId = Ids.auditBind ∨ m.methodId = Ids.auditStatus
  · obtain ⟨hanswered, hreply⟩ := refused_of_method l (x := x) rfl rfl hmethod
    rw [hanswered] at hanswer hstate
    obtain ⟨hstatus, hevents⟩ := Answer.mk.inj hanswer
    rw [hreply]
    have hcode := List.head_eq_of_cons_eq hstatus
    have hargs : eAuditArgs ≠ 0 := by decide
    refine ⟨⟨iff_of_false hargs fun hno => ?_, fun hbind hother => ?_⟩, hevents.symm, hstate⟩
    · exact absurd (hcode.symm.trans hno) (by decide)
    · exact (hmethod.elim hbind hother).elim
  · rw [answered_eq_reply l (x := x) rfl rfl hmethod] at hanswer hstate
    obtain ⟨hstatus, hevents⟩ := Answer.mk.inj hanswer
    have hcode := List.head_eq_of_cons_eq hstatus
    refine ⟨⟨?_, fun _ _ => hcode.symm⟩, hevents.symm, hstate⟩
    rw [← hcode]
    rfl

/-! ## The batch path -/

/-- **A batch for the audit ledger**: a frame that asks for patches, on a state that is accepted, with
not too many messages. -/
structure Batched (input : BatchInput) (messages : List CanonicalMessage) : Prop where
  decodes : ∃ frame : Slice, decodeBatchInput frame.bytes = .ok input
  mode_eq : input.requiredStateOutputMode = .dataPatchList
  accepted : ∃ n, Legacy.layout.validate input.state = .ok n
  carries : input.Carries messages
  length_le : messages.length ≤ maxBatch

/-- A state that stores a ledger. -/
def Stores (l : Ledger) (b : Bytes) : Prop := l.Valid ∧ Legacy.format.encode l = b

/-- A batch starts from the state of a ledger. -/
theorem Batched.stores (h : Batched input messages) : ∃ l, Stores l input.state := by
  obtain ⟨n, hvalid⟩ := h.accepted
  obtain ⟨l, hl, hstate, -⟩ := Legacy.reads.validate_iff.mp hvalid
  exact ⟨l, hl, hstate⟩

/-- What a batch of the audit ledger does, message by message. -/
theorem processBatch_eq (h : Batched input messages) (hl : Stores l input.state) :
    (Legacy.auditLedger.processBatch input).statusCodes =
        (Ledger.replies messages l).1.map Prod.fst ∧
      (Legacy.auditLedger.processBatch input).eventIntents =
        placed 0 ((Ledger.replies messages l).1.map Prod.snd) ∧
      (Legacy.auditLedger.processBatch input).appliedTo input.state =
        Legacy.format.encode (Ledger.replies messages l).2 := by
  obtain ⟨frame, hx⟩ := h.decodes
  obtain ⟨-, hframed, -⟩ := (decodeBatchInput_ok_iff frame input).mp hx
  obtain ⟨hanswer, hnext⟩ := Legacy.keeps.batch hl.1 hl.2.symm hframed h.carries h.mode_eq
  unfold Ledger.batchAnswered at hanswer hnext
  rw [if_neg (Nat.not_lt.mpr h.length_le), Ledger.rounds_eq] at hanswer hnext
  obtain ⟨hstatuses, hevents⟩ := Answer.mk.inj hanswer
  rw [← hl.2]
  exact ⟨hstatuses, hevents, hnext⟩

/-- The reply to a message, in any mode. -/
def replyTo (item : CanonicalMessage × StateOutputMode) (l : Ledger) :
    (U32 × List EventIntent) × Ledger := l.reply item.1

/-- **The same as in sequence**: the state, the events, and message by message the status. -/
structure InSequence (input : BatchInput) (items : List (CanonicalMessage × StateOutputMode))
    (out : BatchOutput) : Prop where
  state_eq : out.appliedTo input.state = (Alloc.run (isolatedRun input) items input.state).2
  events_eq : out.eventIntents =
    placed 0 ((Alloc.run (isolatedRun input) items input.state).1.map MessageOutput.eventIntents)
  length_eq : out.statusCodes.length = items.length
  fate : ∀ (k : ℕ) (item : CanonicalMessage × StateOutputMode), items[k]? = some item →
    ∃ status single, out.statusCodes[k]? = some status ∧
      (Alloc.run (isolatedRun input) items input.state).1[k]? = some single ∧
        SameFate item.1 status single

/-- **A batch of messages of accounts** is the sequence of the isolated messages, each on the state
that those before it have left, and in any mode. -/
theorem batch_eq_sequence {items : List (CanonicalMessage × StateOutputMode)}
    (h : Batched input (items.map Prod.fst)) (hinternal : ∀ item ∈ items, ∃ m, item.1 = .internal m) :
    InSequence input items (Legacy.auditLedger.processBatch input) := by
  obtain ⟨l, hl⟩ := h.stores
  obtain ⟨hstatuses, hevents, hnext⟩ := processBatch_eq h hl
  have hreplies : Ledger.replies (items.map Prod.fst) l = Alloc.run replyTo items l :=
    Alloc.run_map items l
  have hstep : ∀ item ∈ items, ∀ l b, Stores l b →
      SameFate item.1 (replyTo item l).1.1 (isolatedRun input item b).1 ∧
        (replyTo item l).1.2 = (isolatedRun input item b).1.eventIntents ∧
          Stores (replyTo item l).2 (isolatedRun input item b).2 := by
    rintro ⟨message, mode⟩ hitem l _ ⟨hl, rfl⟩
    obtain ⟨m, rfl⟩ := hinternal _ hitem
    obtain ⟨hfate, hevents, hstate⟩ := isolated_eq_reply input hl m mode
    exact ⟨hfate, hevents, hl.reply _, hstate.symm⟩
  obtain ⟨hfates, hlooks, -, hend⟩ := Alloc.run_related Stores
    (fun item r out => SameFate item.1 r.1 out) Prod.snd MessageOutput.eventIntents items hstep hl
  rw [hreplies] at hstatuses hevents hnext
  refine ⟨hnext.trans hend, ?_, ?_, fun k item hitem => ?_⟩
  · rw [hevents, hlooks]
  · rw [hstatuses, List.length_map, Alloc.length_run]
  · obtain ⟨r, out, hr, hout, hfate⟩ := hfates k item hitem
    refine ⟨r.1, out, ?_, hout, hfate⟩
    rw [hstatuses, List.getElem?_map, hr]
    rfl

/-- **The same without a message** from outside at a place: this message is refused, and the answer
to the others, and the state, is that to a batch without it. -/
structure WithoutMessage (place : ℕ) (input : BatchInput) (out : BatchOutput) (input' : BatchInput)
    (out' : BatchOutput) : Prop where
  refused : out.statusCodes[place]? = some eAuditAuth
  statuses_eq : out'.statusCodes = out.statusCodes.eraseIdx place
  events_eq : out.eventIntents = out'.eventIntents.map (movedFrom place)
  state_eq : out.appliedTo input.state = out'.appliedTo input'.state

/-- **A message from outside** leaves no trace in a batch. -/
theorem batch_skips_external {input' : BatchInput} {messages' : List CanonicalMessage}
    {e : ExternalMessage} (h : Batched input (messages ++ .external e :: messages'))
    (h' : Batched input' (messages ++ messages')) (hsame : input'.state = input.state) :
    WithoutMessage messages.length input (Legacy.auditLedger.processBatch input) input'
      (Legacy.auditLedger.processBatch input') := by
  obtain ⟨l, hl⟩ := h.stores
  obtain ⟨hstatuses, hevents, hnext⟩ := processBatch_eq h hl
  obtain ⟨hstatuses', hevents', hnext'⟩ := processBatch_eq h' (hsame ▸ hl)
  rw [Ledger.replies_append] at hstatuses hevents hnext hstatuses' hevents' hnext'
  rw [Ledger.replies_external] at hstatuses hevents hnext
  have hstatus_len : ((Ledger.replies messages l).1.map Prod.fst).length = messages.length := by
    rw [List.length_map, Ledger.length_replies]
  have hevent_len : ((Ledger.replies messages l).1.map Prod.snd).length = messages.length := by
    rw [List.length_map, Ledger.length_replies]
  rw [List.map_append, List.map_cons] at hstatuses hevents
  rw [List.map_append] at hstatuses' hevents'
  refine ⟨?_, ?_, ?_, hnext.trans hnext'.symm⟩
  · rw [hstatuses, ← hstatus_len, List.getElem?_append_right le_rfl, Nat.sub_self]
    rfl
  · rw [hstatuses, hstatuses', ← hstatus_len, List.eraseIdx_append_of_length_le le_rfl, Nat.sub_self]
    rfl
  · have hsmall : ((Ledger.replies messages l).1.map Prod.snd).length +
        ((Ledger.replies messages' (Ledger.replies messages l).2).1.map Prod.snd).length < 2 ^ 32 := by
      have hmax : maxBatch = 256 := rfl
      have hlength := h'.length_le
      rw [List.length_append] at hlength
      rw [hevent_len, List.length_map, Ledger.length_replies]
      omega
    rw [hevents, hevents', placed_append, placed_append, placed_cons, List.map_nil, List.nil_append,
      Nat.zero_add, ← hevent_len]
    exact placed_moved hsmall

/-- **The same in two parts**: the statuses and events of the second part follow those of the first
one, and the state is that behind the second part. -/
structure InParts (place : ℕ) (input : BatchInput) (out first : BatchOutput) (input₂ : BatchInput)
    (second : BatchOutput) : Prop where
  statuses_eq : out.statusCodes = first.statusCodes ++ second.statusCodes
  events_eq : out.eventIntents = first.eventIntents ++ second.eventIntents.map (shifted place)
  state_eq : out.appliedTo input.state = second.appliedTo input₂.state

/-- **A batch can be cut**: the second part finds the state that the first part has left. -/
theorem batch_splits {input₁ input₂ : BatchInput} {messages' : List CanonicalMessage}
    (h : Batched input (messages ++ messages')) (h₁ : Batched input₁ messages)
    (h₂ : Batched input₂ messages') (hstate₁ : input₁.state = input.state)
    (hstate₂ : input₂.state = (Legacy.auditLedger.processBatch input₁).appliedTo input₁.state) :
    InParts messages.length input (Legacy.auditLedger.processBatch input)
      (Legacy.auditLedger.processBatch input₁) input₂ (Legacy.auditLedger.processBatch input₂) := by
  obtain ⟨l, hl⟩ := h.stores
  obtain ⟨hstatuses, hevents, hnext⟩ := processBatch_eq h hl
  obtain ⟨hstatuses₁, hevents₁, hnext₁⟩ := processBatch_eq h₁ (hstate₁ ▸ hl)
  obtain ⟨hstatuses₂, hevents₂, hnext₂⟩ := processBatch_eq h₂
    ⟨Ledger.valid_replies hl.1 messages, (hstate₂.trans hnext₁).symm⟩
  rw [Ledger.replies_append] at hstatuses hevents hnext
  refine ⟨?_, ?_, hnext.trans hnext₂.symm⟩
  · rw [hstatuses, hstatuses₁, hstatuses₂, List.map_append]
  · have hlen : ((Ledger.replies messages l).1.map Prod.snd).length = messages.length := by
      rw [List.length_map, Ledger.length_replies]
    rw [hevents, hevents₁, hevents₂, List.map_append, placed_append, hlen, placed_shift]

/-- **A batch is sequential.** A batch of messages of accounts does what the isolated messages do one
after another; messages from outside leave no trace in a batch; and a batch can be cut at any place. -/
theorem batch_is_sequential :
    (∀ (input : BatchInput) (items : List (CanonicalMessage × StateOutputMode)),
      Batched input (items.map Prod.fst) → (∀ item ∈ items, ∃ m, item.1 = .internal m) →
        InSequence input items (Legacy.auditLedger.processBatch input)) ∧
    (∀ (input input' : BatchInput) (messages messages' : List CanonicalMessage) (e : ExternalMessage),
      Batched input (messages ++ .external e :: messages') → Batched input' (messages ++ messages') →
        input'.state = input.state →
          WithoutMessage messages.length input (Legacy.auditLedger.processBatch input) input'
            (Legacy.auditLedger.processBatch input')) ∧
    ∀ (input input₁ input₂ : BatchInput) (messages messages' : List CanonicalMessage),
      Batched input (messages ++ messages') → Batched input₁ messages → Batched input₂ messages' →
        input₁.state = input.state →
          input₂.state = (Legacy.auditLedger.processBatch input₁).appliedTo input₁.state →
            InParts messages.length input (Legacy.auditLedger.processBatch input)
              (Legacy.auditLedger.processBatch input₁) input₂
              (Legacy.auditLedger.processBatch input₂) :=
  ⟨fun _ _ => batch_eq_sequence, fun _ _ _ _ _ => batch_skips_external,
    fun _ _ _ _ _ => batch_splits⟩

end

/-! ## Two reports and a call from outside -/

section

local instance : Target := Target.wasm32

/-- A report of a second payment. -/
def sampleNext : InternalMessage :=
  InternalMessage.sent
    { sampleTransfer (sampleAddresses sampleMember) (sampleAccount 50) Ids.auditRecord none [] with
      body := paymentBody 0 8 6 }

/-- The reports of both payments. -/
def sampleReports : List InternalMessage :=
  [sampleTransfer (sampleAddresses sampleMember) (sampleAccount 50) Ids.auditRecord none [], sampleNext]

/-- A call from outside. -/
def sampleOutside : ExternalMessage :=
  SignedCall.message
    { pubkey := sampleKey 31
      destination := sampleAccount 50
      deploys := false
      methodId := Ids.auditStatus
      extra := .ofEntries []
      body := [] }

/-- A batch for the ledger, without messages, -/
def sampleEmptyBatch (state : Bytes) : BatchInput where
  context := ⟨0, 0, 0, zeros 32⟩
  destination := sampleAccount 50
  selectedCodeId := zeros 32
  requiredStateOutputMode := .dataPatchList
  extra := .ofEntries []
  state := state
  offsets := []
  messageBytes := []
  messageCount := 0
  internalEventResults := []

/-- and with some. -/
def sampleBatch (state : Bytes) (messages : List CanonicalMessage) : BatchInput :=
  (sampleEmptyBatch state).withMessages messages

/-- Its state. -/
theorem state_sampleBatch (state : Bytes) (messages : List CanonicalMessage) :
    (sampleBatch state messages).state = state := rfl

/-- The call from outside and the reports. -/
def sampleMessages : List CanonicalMessage :=
  .external sampleOutside :: sampleReports.map CanonicalMessage.internal

/-- The messages can stand in a batch. -/
theorem sampleMessages_ok {m : CanonicalMessage} (hm : m ∈ sampleMessages) :
    m.WellFormed ∧ m.canonicalBytes = m.serialize ∧ m.destination = sampleAccount 50 ∧
      ¬ m.isCallback ∧ ¬ m.hasCallbackRequest := by
  have hwf (m : CanonicalMessage) (hdecode : decodeCanonicalMessage m.serialize = .ok m)
      (hlength : m.serialize.length ≤ usizeMax) : m.WellFormed :=
    ((decodeCanonicalMessage_ok_iff ⟨m.serialize, hlength⟩ m).mp hdecode).2.2
  simp only [sampleMessages, sampleReports, List.map_cons, List.map_nil, List.mem_cons,
    List.not_mem_nil, or_false] at hm
  rcases hm with rfl | rfl | rfl <;>
    exact ⟨hwf _ (by decide +kernel) (by decide +kernel), rfl, rfl, by decide, by decide⟩

/-- Some of them make a batch on the state of a ledger. -/
theorem batched_sampleBatch {l : Ledger} (hl : l.Valid) {messages : List CanonicalMessage}
    (hsome : ∀ m ∈ messages, m ∈ sampleMessages) (hfew : messages.length ≤ 3) :
    Batched (sampleBatch (Legacy.format.encode l) messages) messages := by
  obtain ⟨hframes, -, -⟩ :=
    (Format.encode_eq_iff (f := Legacy.format) (l := l) Legacy.length_head).mp rfl
  have hstate : (Legacy.format.encode l).length = 65540 :=
    hframes.length_eq.trans (Legacy.size_eq hl.count_le)
  have hshort : ∀ m ∈ sampleMessages, m.canonicalBytes.length ≤ 500 := by decide +kernel
  have hbytes : (messages.map CanonicalMessage.canonicalBytes).flatten.length ≤ 1500 := by
    rw [List.length_flatten, List.map_map]
    refine (List.sum_le_card_nsmul _ 500 ?_).trans ?_
    · exact List.forall_mem_map.mpr fun m hm => hshort m (hsome m hm)
    · rw [List.length_map, smul_eq_mul]
      exact Nat.mul_le_mul_right 500 hfew
  obtain ⟨hframed, hcarries⟩ : (sampleBatch (Legacy.format.encode l) messages).Framed ∧
      (sampleBatch (Legacy.format.encode l) messages).Carries messages := by
    refine BatchInput.carries_withMessages (x := sampleEmptyBatch (Legacy.format.encode l))
      CurrencyAmounts.wellFormed_ofEntries_nil ?_ (Nat.two_pow_pos 32) (fun m hm => sampleMessages_ok (hsome m hm)) (by omega)
    exact hstate.trans_lt (by decide)
  have hcount := hcarries.count_eq
  have hlength : (sampleBatch (Legacy.format.encode l) messages).toBytes.length ≤ usizeMax := by
    have hoffsets := hframed.offsets_length
    have hregion : (sampleBatch (Legacy.format.encode l) messages).messageBytes.length ≤ 1500 := hbytes
    have hresults : (sampleBatch (Legacy.format.encode l) messages).internalEventResults = [] := rfl
    have hextra : (sampleBatch (Legacy.format.encode l) messages).extra.bytes = [] := rfl
    have hold : (sampleBatch (Legacy.format.encode l) messages).state.length = 65540 := hstate
    apply le_usizeMax
    simp only [BatchInput.toBytes, List.length_append, length_lengthPrefixed, List.length_cons,
      length_toLe, ExecutionContext.length_toBytes, AccountAddress.length_toBytes,
      hold, hresults, hextra, List.length_nil]
    have hmagic : acbiMagic.length = 4 := rfl
    have hid := (sampleBatch (Legacy.format.encode l) messages).selectedCodeId.property
    have hzeros := (zeros 7).property
    omega
  refine ⟨⟨⟨_, hlength⟩, ?_⟩, rfl, ?_, hcarries, hfew.trans (by decide)⟩
  · exact (decodeBatchInput_ok_iff ⟨_, hlength⟩ _).mpr ⟨rfl, hframed, _, hcarries⟩
  · exact ⟨_, Legacy.reads.validate_iff.mpr ⟨l, hl, rfl, rfl⟩⟩

/-- The state with the binding. -/
def sampleBoundState : Bytes := Legacy.format.encode sampleBound

/-- The first report, -/
def sampleFirstItem : CanonicalMessage :=
  .internal (sampleTransfer (sampleAddresses sampleMember) (sampleAccount 50) Ids.auditRecord none [])

/-- and the batch with it alone. -/
def sampleFirstBatch : BatchInput := sampleBatch sampleBoundState [sampleFirstItem]

/-- The batch of the reports, -/
def sampleReportBatch : BatchInput := sampleBatch sampleBoundState [sampleFirstItem, .internal sampleNext]

/-- and with a call from outside between them. -/
def sampleMixedBatch : BatchInput :=
  sampleBatch sampleBoundState [sampleFirstItem, .external sampleOutside, .internal sampleNext]

/-- The batch with the second report, on the state that the first one leaves. -/
def sampleSecondBatch : BatchInput :=
  sampleBatch ((Legacy.auditLedger.processBatch sampleFirstBatch).appliedTo sampleBoundState)
    [.internal sampleNext]

/-- The ledger of the state. -/
theorem sampleBound_valid : sampleBound.Valid := init_sampleStart.2.1.answered _

/-- The mixed batch is one for the ledger. -/
theorem batched_sampleMixedBatch : Batched sampleMixedBatch
    [sampleFirstItem, .external sampleOutside, .internal sampleNext] :=
  batched_sampleBatch sampleBound_valid (by simp [sampleMessages, sampleReports, sampleFirstItem])
    (by decide)

/-- Two reports in one batch, with a call from outside between them, and cut in two. -/
theorem batch_is_sequential_sample :
    (Legacy.auditLedger.processBatch sampleMixedBatch).statusCodes = [0, eAuditAuth, 0] ∧
      InSequence sampleReportBatch
        [(sampleFirstItem, .fullReplace), (.internal sampleNext, .dataPatchList)]
        (Legacy.auditLedger.processBatch sampleReportBatch) ∧
      WithoutMessage 1 sampleMixedBatch (Legacy.auditLedger.processBatch sampleMixedBatch)
        sampleReportBatch (Legacy.auditLedger.processBatch sampleReportBatch) ∧
      InParts 1 sampleReportBatch (Legacy.auditLedger.processBatch sampleReportBatch)
        (Legacy.auditLedger.processBatch sampleFirstBatch) sampleSecondBatch
        (Legacy.auditLedger.processBatch sampleSecondBatch) := by
  have hbound := sampleBound_valid
  have hfirst : Batched sampleFirstBatch [sampleFirstItem] :=
    batched_sampleBatch hbound (by simp [sampleMessages, sampleReports, sampleFirstItem]) (by decide)
  have hreports : Batched sampleReportBatch [sampleFirstItem, .internal sampleNext] :=
    batched_sampleBatch hbound (by simp [sampleMessages, sampleReports, sampleFirstItem]) (by decide)
  have hsecond : Batched sampleSecondBatch [.internal sampleNext] := by
    obtain ⟨-, -, hnext⟩ := processBatch_eq hfirst (l := sampleBound) ⟨hbound, rfl⟩
    have hvalid : (Ledger.replies [sampleFirstItem] sampleBound).2.Valid := Ledger.valid_replies hbound _
    have hstate : sampleSecondBatch = sampleBatch
        (Legacy.format.encode (Ledger.replies [sampleFirstItem] sampleBound).2)
        [.internal sampleNext] := by
      rw [← hnext]
      rfl
    rw [hstate]
    exact batched_sampleBatch hvalid (by simp [sampleMessages, sampleReports]) (by decide)
  have hstates : sampleReportBatch.state = sampleBoundState ∧
      sampleMixedBatch.state = sampleBoundState ∧ sampleFirstBatch.state = sampleBoundState :=
    ⟨state_sampleBatch _ _, state_sampleBatch _ _, state_sampleBatch _ _⟩
  obtain ⟨hsequence, hskips, hsplits⟩ := batch_is_sequential
  refine ⟨?_, hsequence _ _ hreports ?_,
    hskips _ _ [sampleFirstItem] _ _ batched_sampleMixedBatch hreports (hstates.1.trans hstates.2.1.symm),
    hsplits _ _ _ [sampleFirstItem] _ hreports hfirst hsecond (hstates.2.2.trans hstates.1.symm) ?_⟩
  · rw [(processBatch_eq batched_sampleMixedBatch (l := sampleBound) ⟨hbound, rfl⟩).1]
    decide +kernel
  · exact List.forall_mem_cons.mpr ⟨⟨_, rfl⟩, List.forall_mem_singleton.mpr ⟨_, rfl⟩⟩
  · rw [hstates.2.2]
    exact state_sampleBatch _ _

end

end AvmSdk.Audit
