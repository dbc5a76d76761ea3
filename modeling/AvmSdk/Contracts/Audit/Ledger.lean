import AvmSdk.Contracts.Audit.Layout

/-!
# What an audit ledger is for

The ledger without its bytes: an owner, the sources of the members and a record for each of them. A
source is set once; a record takes the reports of its source with ascending nonces.

* `Ledger.Valid`: the ledgers that are stored.
* `Ledger.receive`, `Ledger.handle`, `Ledger.changed`: what one message does. `Ledger.rounds`: what the
  messages of a batch do.
* `Ledger.Valid.changed`, `Ledger.Valid.rounds`: both lead from a valid ledger to a valid one.
* `Ledger.raises_handle`, `Ledger.raises_receiveMessage`: what is refused, is refused with a code.
-/

namespace AvmSdk.Audit

open Wire Sdk Contracts Hub

/-- **A ledger.** -/
structure Ledger where
  /-- The key that sets the sources. -/
  owner : Bytes32
  /-- The number of members. -/
  count : U8
  /-- The accounts that report, zero where none is set. -/
  sources : Fin maxMembers → AccountAddress
  /-- What they have reported. -/
  records : Records

namespace Ledger

/-- The members of a ledger are those below its count. -/
abbrev Active (l : Ledger) (i : Fin maxMembers) : Prop := i.val < l.count.toNat

/-- Nothing is set behind the members. -/
def Trimmed (l : Ledger) : Prop :=
  ∀ i, ¬ l.Active i → l.sources i = zeroAddress ∧ l.records i = Record.default

/-- The ledgers that are stored. -/
structure Valid (l : Ledger) : Prop where
  count_ne_zero : l.count ≠ 0
  count_le : l.count.toNat ≤ maxMembers
  owner_ne_zero : l.owner ≠ zeros 32
  idle : l.Trimmed
  source_ok : ∀ i, l.sources i ≠ zeroAddress → nonzeroAddress (l.sources i)
  source_inj : ∀ i j, l.sources i ≠ zeroAddress → l.sources i = l.sources j → i = j
  record_ok : ∀ i, ¬ (l.records i).Malformed

/-- A ledger without sources and reports. -/
def new (owner : Bytes32) (count : U8) : Ledger where
  owner := owner
  count := count
  sources := fun _ => zeroAddress
  records := fun _ => Record.default

/-- The ledger with another record. -/
def withRecord (l : Ledger) (index : ℕ) (r : Record) : Ledger :=
  { l with records := Function.update l.records (slot index) r }

/-- The ledger with another source. -/
def withSource (l : Ledger) (index : ℕ) (a : AccountAddress) : Ledger :=
  { l with sources := Function.update l.sources (slot index) a }

/-- What an accepted message changes. -/
inductive Change
  /-- Nothing. -/
  | keep
  /-- A report was taken. -/
  | entry (e : Entry)
  /-- The source of a member was set. -/
  | source (index : ℕ) (a : AccountAddress)

/-- The ledger after a change. -/
def changed (l : Ledger) : Change → Ledger
  | .keep => l
  | .entry e => l.withRecord e.index e.record
  | .source index a => l.withSource index a

section

variable [Target]

/-- The report of a message from a source, if the ledger takes it. -/
def receive (l : Ledger) (source : AccountAddress) (message : CanonicalMessage) : HubResult Entry :=
  match message with
  | .external _ => .error eAuditAuth
  | .internal m => do
      failIf (NoReport m) eAuditArgs
      let (index, nonce, amount) ← readPayment m.body
      failIf (l.count.toNat ≤ index ∨ source ≠ l.sources (slot index)) eAuditAuth
      let r ← (l.records (slot index)).add nonce amount
      pure ⟨index, nonce, amount, r⟩

/-- The query of anyone. -/
def query (input : MessageInput) : HubResult Change :=
  match input.caller with
  | .internal _ => .error eAuditAuth
  | .external _ => do
      noBody eArgs input.message.body
      failIf (¬ input.message.extra.isEmpty) eAuditArgs
      pure .keep

/-- The binding of the owner: the member is free, and no member has the source. -/
def binding (l : Ledger) (input : MessageInput) : HubResult Change := do
  failIf (input.caller ≠ .external l.owner) eAuditAuth
  let body := input.message.body
  failIf (body.length ≠ 65 ∨ l.count.toNat ≤ (body.getD 0 0).toNat ∨ ¬ input.message.extra.isEmpty)
    eAuditArgs
  let source ← addressAt eArgs body 1
  failIf ((¬ nonzeroAddress source ∨ source.dappId ≠ input.destination.dappId ∨
    source = input.destination) ∨ l.sources (slot (body.getD 0 0).toNat) ≠ zeroAddress ∨
    ∃ i, l.Active i ∧ l.sources i = source) eAuditArgs
  pure (.source (body.getD 0 0).toNat source)

/-- The report of a source. -/
def reported (l : Ledger) (input : MessageInput) : HubResult Change :=
  match input.caller with
  | .external _ => .error eAuditAuth
  | .internal source => .entry <$> l.receive source input.message

/-- **What a message does.** -/
def handle (l : Ledger) (input : MessageInput) : HubResult Change :=
  if input.message.methodId = Ids.auditStatus then query input
  else if input.message.methodId = Ids.auditBind then l.binding input
  else l.reported input

/-! ### Batches -/

/-- The events of a report that was taken. -/
def entryEvents (inputIndex : U32) (e : Entry) : List EventIntent :=
  (auditEvent inputIndex e).toOption.toList

/-- What the messages of a batch have done so far. -/
structure Outcome where
  /-- The ledger. -/
  ledger : Ledger
  /-- The status codes. -/
  statuses : List U32
  /-- The events. -/
  events : List EventIntent

/-- The report of a message of a batch, if the ledger takes it. -/
def receiveMessage (l : Ledger) (message : CanonicalMessage) : HubResult Entry :=
  match message with
  | .external _ => .error eAuditAuth
  | .internal m => l.receive m.source message

/-- One message of a batch. -/
def round (o : Outcome) (item : CanonicalMessage × ℕ) : Outcome :=
  match o.ledger.receiveMessage item.1 with
  | .ok e =>
      ⟨o.ledger.withRecord e.index e.record, o.statuses ++ [0],
        o.events ++ entryEvents (BitVec.ofNat 32 item.2) e⟩
  | .error code => ⟨o.ledger, o.statuses ++ [code], o.events⟩

/-- **What a batch does.** -/
def rounds (l : Ledger) (messages : List CanonicalMessage) : Outcome :=
  messages.zipIdx.foldl round ⟨l, [], []⟩

end

/-! ## Validity -/

section

variable {l : Ledger} {i : Fin maxMembers} {index : ℕ}

/-- An index in range is its own slot, -/
theorem slot_val (i : Fin maxMembers) : slot i.val = i := Fin.ext (Nat.mod_eq_of_lt i.isLt)

/-- and the slot of an index in range is that index. -/
theorem val_slot (h : index < maxMembers) : (slot index).val = index := Nat.mod_eq_of_lt h

/-- An index below the count is active. -/
theorem Valid.active_slot (h : l.Valid) (hi : index < l.count.toNat) : l.Active (slot index) := by
  unfold Active
  rw [val_slot (hi.trans_le h.count_le)]
  exact hi

/-- A new ledger is valid. -/
theorem valid_new {owner : Bytes32} {count : U8} (howner : owner ≠ zeros 32) (hcount : count ≠ 0)
    (hle : count.toNat ≤ maxMembers) : (new owner count).Valid := by
  refine ⟨hcount, hle, howner, fun i _ => ⟨rfl, rfl⟩, fun i h => absurd rfl h,
    fun i j h => absurd rfl h, fun i => ?_⟩
  show ¬ Record.default.Malformed
  decide

/-- A ledger with a good record is valid. -/
theorem Valid.withRecord (h : l.Valid) (hi : index < l.count.toNat) {r : Record}
    (hr : ¬ r.Malformed) : (l.withRecord index r).Valid := by
  refine ⟨h.count_ne_zero, h.count_le, h.owner_ne_zero, fun i hidle => ⟨(h.idle i hidle).1, ?_⟩,
    h.source_ok, h.source_inj, fun i => ?_⟩
  · have hne : i ≠ slot index := by
      rintro rfl
      exact hidle (h.active_slot hi)
    show Function.update l.records (slot index) r i = _
    rw [Function.update_of_ne hne]
    exact (h.idle i hidle).2
  · show ¬ (Function.update l.records (slot index) r i).Malformed
    by_cases hne : i = slot index
    · rw [hne, Function.update_self]
      exact hr
    · rw [Function.update_of_ne hne]
      exact h.record_ok i

/-- A ledger with a new source is valid. -/
theorem Valid.withSource (h : l.Valid) (hi : index < l.count.toNat) {a : AccountAddress}
    (ha : nonzeroAddress a) (hfresh : ∀ i, l.Active i → l.sources i ≠ a) :
    (l.withSource index a).Valid := by
  have hsource (i : Fin maxMembers) : (l.withSource index a).sources i =
      if i = slot index then a else l.sources i := Function.update_apply ..
  have ha0 : a ≠ zeroAddress := fun hno => ha.1 (congrArg AccountAddress.dappId hno)
  have hnone (i : Fin maxMembers) : l.sources i ≠ a := by
    by_cases hactive : l.Active i
    · exact hfresh i hactive
    · rw [(h.idle i hactive).1]
      exact ha0.symm
  refine ⟨h.count_ne_zero, h.count_le, h.owner_ne_zero, fun i hidle => ⟨?_, (h.idle i hidle).2⟩,
    fun i hne => ?_, fun i j hne heq => ?_, h.record_ok⟩
  · have hne : i ≠ slot index := by
      rintro rfl
      exact hidle (h.active_slot hi)
    rw [hsource, if_neg hne]
    exact (h.idle i hidle).1
  · rw [hsource] at hne ⊢
    split_ifs with hslot
    · exact ha
    · rw [if_neg hslot] at hne
      exact h.source_ok i hne
  · rw [hsource] at hne heq
    rw [hsource] at heq
    split_ifs at hne heq with hslot hslot' hslot'
    · rw [hslot, hslot']
    · exact absurd heq.symm (hnone j)
    · exact absurd heq (hnone i)
    · exact h.source_inj i j hne heq

end

section

variable [Target] {l : Ledger} {e : Entry} {source : AccountAddress} {m : InternalMessage}
  {message : CanonicalMessage} {r old : Record} {nonce : U64} {amount : U128}

omit [Target] in
/-- One more report, in exact numbers. -/
theorem add_ok_iff : old.add nonce amount = .ok r ↔
    old.lastNonce < nonce ∧ r.lastNonce = nonce ∧
      r.total.toNat = old.total.toNat + amount.toNat ∧
      r.count.toNat = old.count.toNat + 1 := by
  have hone : (1 : U64).toNat = 1 := rfl
  simp only [Record.add, bind_ok_iff, failIf_ok_iff, okOr_ok_iff, pure_ok_iff, exists_const,
    wordCheckedAdd_eq_some, BitVec.not_le, hone]
  constructor
  · rintro ⟨hlt, total, htotal, count, hcount, rfl⟩
    exact ⟨hlt, rfl, htotal.symm, hcount.symm⟩
  · rintro ⟨hlt, hnonce, htotal, hcount⟩
    exact ⟨hlt, r.total, htotal.symm, r.count, hcount.symm, by rw [← hnonce]⟩

omit [Target] in
/-- A record that took a report is good. -/
theorem not_malformed_of_add (hr : old.add nonce amount = .ok r) (hamount : amount ≠ 0) :
    ¬ r.Malformed := by
  obtain ⟨hlt, hnonce, htotal, hcount⟩ := add_ok_iff.mp hr
  have hpos : amount.toNat ≠ 0 := fun hno => hamount (BitVec.eq_of_toNat_eq hno)
  rintro (⟨hzero, -⟩ | ⟨-, hzero | hzero⟩)
  · rw [hzero] at hcount
    exact absurd hcount.symm (Nat.succ_ne_zero _)
  · rw [← hnonce, hzero] at hlt
    exact absurd (BitVec.lt_def.mp hlt) (Nat.not_lt_zero _)
  · rw [hzero] at htotal
    have hnone : (0 : U128).toNat = 0 := rfl
    omega

/-- **A report that is taken** comes from the source of its member. -/
structure Admitted (l : Ledger) (source : AccountAddress) (m : InternalMessage) (e : Entry) : Prop
    where
  report : ¬ NoReport m
  body_eq : readPayment m.body = .ok (e.index, e.nonce, e.amount)
  active : e.index < l.count.toNat
  source_eq : source = l.sources (slot e.index)
  add_eq : (l.records (slot e.index)).add e.nonce e.amount = .ok e.record

/-- When a report is taken, and what it then enters. -/
theorem receive_ok_iff : l.receive source (.internal m) = .ok e ↔ Admitted l source m e := by
  simp only [receive, bind_ok_iff, failIf_ok_iff, pure_ok_iff, exists_const, Prod.exists]
  constructor
  · rintro ⟨hreport, index, nonce, amount, hbody, hguard, r, hr, rfl⟩
    push Not at hguard
    exact ⟨hreport, hbody, hguard.1, hguard.2, hr⟩
  · rintro ⟨hreport, hbody, hactive, hsource, hr⟩
    refine ⟨hreport, e.index, e.nonce, e.amount, hbody, ?_, e.record, hr, rfl⟩
    push Not
    exact ⟨hactive, hsource⟩

/-- The amount of a report is not zero. -/
theorem Admitted.amount_ne_zero (h : Admitted l source m e) : e.amount ≠ 0 := by
  obtain ⟨_, -, -, -, hamount, -⟩ := readPayment_ok_iff.mp h.body_eq
  exact hamount

/-- An entry that is admitted keeps the ledger valid. -/
theorem Admitted.valid (h : Admitted l source m e) (hl : l.Valid) :
    (l.withRecord e.index e.record).Valid :=
  hl.withRecord h.active (not_malformed_of_add h.add_eq h.amount_ne_zero)

/-- A message of a batch that is taken is a report of its own source. -/
theorem receiveMessage_ok_iff : l.receiveMessage message = .ok e ↔
    ∃ m, message = .internal m ∧ Admitted l m.source m e := by
  cases message with
  | external m =>
      constructor
      · intro h
        cases h
      · rintro ⟨m', hno, -⟩
        cases hno
  | internal m =>
      rw [receiveMessage, receive_ok_iff]
      constructor
      · exact fun h => ⟨m, rfl, h⟩
      · rintro ⟨m', heq, h⟩
        cases heq
        exact h

/-- **What an accepted message** has done. -/
inductive Handled (l : Ledger) (x : MessageInput) : Change → Prop
  /-- A query. -/
  | query (method : x.message.methodId = Ids.auditStatus) {actor : Bytes32}
      (caller : x.caller = .external actor) : Handled l x .keep
  /-- A binding. -/
  | bound {a : AccountAddress} {index : ℕ} (method : x.message.methodId = Ids.auditBind)
      (caller : x.caller = .external l.owner) (length_eq : x.message.body.length = 65)
      (index_eq : (x.message.body.getD 0 0).toNat = index) (active : index < l.count.toNat)
      (address_eq : addressAt eArgs x.message.body 1 = .ok a) (address_ok : nonzeroAddress a)
      (free : l.sources (slot index) = zeroAddress)
      (fresh : ∀ i, l.Active i → l.sources i ≠ a) : Handled l x (.source index a)
  /-- A report. -/
  | report {source : AccountAddress} {e : Entry}
      (method : x.message.methodId ≠ Ids.auditStatus ∧ x.message.methodId ≠ Ids.auditBind)
      (caller : x.caller = .internal source) (taken : l.receive source x.message = .ok e) :
      Handled l x (.entry e)

variable {x : MessageInput} {c : Change}

/-- A call that succeeds is one of the cases. -/
theorem handled_of_handle (h : l.handle x = .ok c) : Handled l x c := by
  unfold handle at h
  split_ifs at h with hstatus hbind
  · unfold query at h
    split at h
    next => cases h
    next actor hcaller =>
      simp only [bind_ok_iff, pure_ok_iff] at h
      obtain ⟨-, -, -, -, rfl⟩ := h
      exact .query hstatus hcaller
  · simp only [binding, bind_ok_iff, failIf_ok_iff, pure_ok_iff, exists_const] at h
    obtain ⟨hcaller, hform, a, ha, hguard, rfl⟩ := h
    push Not at hform hguard hcaller
    exact .bound hbind hcaller hform.1 rfl hform.2.1 ha hguard.1.1 hguard.2.1 hguard.2.2
  · unfold reported at h
    split at h
    next => cases h
    next source hcaller =>
      obtain ⟨e, he, rfl⟩ := map_ok_iff.mp h
      exact .report ⟨hstatus, hbind⟩ hcaller he

/-- **Every accepted message** leads to a valid ledger. -/
theorem Valid.changed (hl : l.Valid) (h : l.handle x = .ok c) : (l.changed c).Valid := by
  cases handled_of_handle h with
  | query => exact hl
  | bound method caller length_eq index_eq active address_eq address_ok free fresh =>
      exact hl.withSource active address_ok fresh
  | report method caller taken =>
      cases hm : x.message with
      | external m =>
          rw [hm] at taken
          cases taken
      | internal m =>
          rw [hm] at taken
          exact (receive_ok_iff.mp taken).valid hl

/-! ## Error codes -/

omit [Target] in
/-- Adding to a record raises the error codes of the ledger, -/
theorem raises_add {r : Record} {nonce : U64} {amount : U128} :
    Raises (r.add nonce amount) ErrorCode := by
  unfold Record.add
  refine (raises_failIf fun _ => errorCode rfl).bind fun _ _ => ?_
  refine (raises_okOr fun _ => errorCode rfl).bind fun _ _ => ?_
  exact (raises_okOr fun _ => errorCode rfl).bind fun _ _ => raises_pure _

/-- so does a report, -/
theorem raises_receive (message : CanonicalMessage) :
    Raises (l.receive source message) ErrorCode := by
  cases message with
  | external m => exact raises_error (errorCode rfl)
  | internal m =>
      refine (raises_failIf fun _ => errorCode rfl).bind fun _ _ => raises_readPayment.bind ?_
      rintro ⟨index, nonce, amount⟩ -
      refine (raises_failIf fun _ => errorCode rfl).bind fun _ _ => ?_
      exact raises_add.bind fun _ _ => raises_pure _

/-- and so does a message of a batch. -/
theorem raises_receiveMessage (message : CanonicalMessage) :
    Raises (l.receiveMessage message) ErrorCode := by
  cases message with
  | external m => exact raises_error (errorCode rfl)
  | internal m =>
      unfold receiveMessage
      exact raises_receive _

/-- The errors of a message. -/
theorem raises_handle : Raises (l.handle x) ErrorCode := by
  unfold handle
  refine Raises.ite (fun _ => ?_) fun _ => Raises.ite (fun _ => ?_) fun _ => ?_
  · unfold query
    split
    next => exact raises_error (errorCode rfl)
    next =>
      refine (raises_failIf fun _ => errorCode rfl).bind fun _ _ => ?_
      exact (raises_failIf fun _ => errorCode rfl).bind fun _ _ => raises_pure _
  · unfold binding
    refine (raises_failIf fun _ => errorCode rfl).bind fun _ _ => ?_
    refine (raises_failIf fun _ => errorCode rfl).bind fun _ _ => ?_
    refine (raises_addressAt (errorCode rfl)).bind fun _ _ => ?_
    exact (raises_failIf fun _ => errorCode rfl).bind fun _ _ => raises_pure _
  · unfold reported
    split
    next => exact raises_error (errorCode rfl)
    next => exact (raises_receive _).map _

/-! ## Batches -/

/-- One message of a batch keeps the ledger valid. -/
theorem valid_round {o : Outcome} (h : o.ledger.Valid) (item : CanonicalMessage × ℕ) :
    (round o item).ledger.Valid := by
  unfold round
  split
  next e he =>
    obtain ⟨m, -, hadmitted⟩ := receiveMessage_ok_iff.mp he
    exact hadmitted.valid h
  next => exact h

/-- The messages of a batch keep the ledger valid. -/
theorem valid_foldl_round {o : Outcome} (h : o.ledger.Valid)
    (items : List (CanonicalMessage × ℕ)) : (items.foldl round o).ledger.Valid := by
  induction items generalizing o with
  | nil => exact h
  | cons item items ih => exact ih (valid_round h item)

/-- **A batch** leads to a valid ledger. -/
theorem Valid.rounds (hl : l.Valid) (messages : List CanonicalMessage) :
    (l.rounds messages).ledger.Valid :=
  valid_foldl_round (o := ⟨l, [], []⟩) hl messages.zipIdx

end

end Ledger

end AvmSdk.Audit
